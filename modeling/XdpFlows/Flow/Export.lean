import XdpFlows.Flow.Layout

/-!
# The export thread keeps the meaning of the store

`exportStep` moves a flow from the expired list through the hand of the export thread back into the
pools.  None of this is visible in the abstract store: the finished flows are the exported ones
followed by those still on their way, in the same order before and after (`Rep.exportStep`).  What
the process thread works on stays as it is (`Frame`).
-/

namespace Flow

open SessionWindow Sections

/-! ## The trace -/

section Trace

variable (s : State) (e : Event)

lemma times_log : (s.log e).times = s.times ++ e.time?.toList := by
  simp only [State.times, State.log, List.filterMap_append, List.filterMap_cons,
    List.filterMap_nil]
  cases e.time? <;> rfl

lemma reached_log : (s.log e).reached = s.reached ++ e.reached?.toList := by
  simp only [State.reached, State.log, List.filterMap_append, List.filterMap_cons,
    List.filterMap_nil]
  cases e.reached? <;> rfl

lemma notes_log : (s.log e).notes = s.notes ++ e.note?.toList := by
  simp only [State.notes, State.log, List.filterMap_append, List.filterMap_cons,
    List.filterMap_nil]
  cases e.note? <;> rfl

lemma exported_log : (s.log e).exported = s.exported ++ e.exported?.toList := by
  simp only [State.exported, State.log, List.filterMap_append, List.filterMap_cons,
    List.filterMap_nil]
  cases e.exported? <;> rfl

lemma life_log (i : SessionId) : (s.log e).life i = s.life i ++ (e.life? i).toList := by
  simp only [State.life, State.log, List.filterMap_append, List.filterMap_cons,
    List.filterMap_nil]
  cases e.life? i <;> rfl

lemma inits_log : (s.log e).inits = s.inits + if e.isInit then 1 else 0 := by
  simp only [State.inits, State.log, List.countP_append, List.countP_cons, List.countP_nil]
  split_ifs <;> rfl

lemma insertions_log : (s.log e).insertions = s.insertions + if e.isOpened then 1 else 0 := by
  simp only [State.insertions, State.log, List.countP_append, List.countP_cons, List.countP_nil]
  split_ifs <;> rfl

lemma nodeErrors_log : (s.log e).nodeErrors = s.nodeErrors + if e.isNodeError then 1 else 0 := by
  simp only [State.nodeErrors, State.log, List.countP_append, List.countP_cons, List.countP_nil]
  split_ifs <;> rfl

end Trace

/-! ## Every node and every session is at one place -/

section Unique

variable {g : Layout} {s : State}

lemma Owns.node_count (h : Owns g s) (x : NodeId) :
    s.nodelPool.free.count x + (g.live.map Entry.anode).count x + (g.live.map Entry.bnode).count x
      + (g.expired.map Prod.fst).count x + (g.flags.map Prod.fst).count x
      + s.exporter.node.count x + s.naux.toList.count x + g.lostNodes.count x ≤ 1 := by
  have hnodup : (g.nodes s).Nodup := h.nodes.nodup_iff.mpr List.nodup_range
  have hle := List.nodup_iff_count_le_one.mp hnodup x
  simpa only [Layout.nodes, List.count_append] using hle

lemma Owns.session_count (h : Owns g s) (x : SessionId) :
    s.ipSessionPool.free.count x + s.auxSession.toList.count x + (g.live.map Entry.sess).count x
      + (g.expired.map Prod.snd).count x + (g.flags.map Prod.snd).count x
      + (g.hand.map Prod.snd).count x + s.exporter.printedSession.count x
      + g.lostSessions.count x ≤ 1 := by
  have hnodup : (g.sessions s).Nodup := h.sessions.nodup_iff.mpr List.nodup_range
  have hle := List.nodup_iff_count_le_one.mp hnodup x
  simpa only [Layout.sessions, List.count_append] using hle

lemma Owns.node_length (h : Owns g s) :
    s.nodelPool.free.length + g.live.length + g.live.length + g.expired.length + g.flags.length
      + s.exporter.node.length + s.naux.toList.length + g.lostNodes.length = maxPoolNode := by
  have hlen := h.nodes.length_eq
  simpa only [Layout.nodes, List.length_append, List.length_map, List.length_range] using hlen

lemma Owns.session_length (h : Owns g s) :
    s.ipSessionPool.free.length + s.auxSession.toList.length + g.live.length + g.expired.length
      + g.flags.length + g.hand.length + s.exporter.printedSession.length
      + g.lostSessions.length = maxPoolSession := by
  have hlen := h.sessions.length_eq
  simpa only [Layout.sessions, List.length_append, List.length_map, List.length_range] using hlen

lemma count_map_pos {α : Type} {f : α → ℕ} {l : List α} {a : α} (h : a ∈ l) :
    0 < (l.map f).count (f a) :=
  List.count_pos_iff.mpr (List.mem_map_of_mem h)

lemma count_gone_snd (g : Layout) (x : SessionId) :
    (g.gone.map Prod.snd).count x = (g.hand.map Prod.snd).count x
      + (g.expired.map Prod.snd).count x + (g.flags.map Prod.snd).count x := by
  simp only [Layout.gone, List.map_append, List.count_append]

/-- The node of a flow on its way out. -/
lemma Owns.count_gone_fst (h : Owns g s) {w : NodeId × SessionId} (hw : w ∈ g.gone) :
    0 < s.exporter.node.count w.1 + (g.expired.map Prod.fst).count w.1
      + (g.flags.map Prod.fst).count w.1 := by
  have hpos := count_map_pos (f := Prod.fst) hw
  rw [Layout.gone, List.map_append, List.map_append, List.count_append, List.count_append,
    h.hand] at hpos
  have hsub : s.exporter.poppedNode.count w.1 ≤ s.exporter.node.count w.1 := by
    cases s.exporter <;> simp [ExportPc.poppedNode, ExportPc.node]
  omega

/-- A node outside the table and outside the flows on their way. -/
lemma Owns.node_apart (h : Owns g s) {n : NodeId}
    (hn : 0 < s.nodelPool.free.count n + s.naux.toList.count n) :
    (∀ e ∈ g.live, e.anode ≠ n ∧ e.bnode ≠ n) ∧ ∀ w ∈ g.gone, w.1 ≠ n := by
  have hone := h.node_count n
  refine ⟨?_, ?_⟩
  · intro e he
    have ha := count_map_pos (f := Entry.anode) he
    have hb := count_map_pos (f := Entry.bnode) he
    refine ⟨?_, ?_⟩
    · rintro rfl
      omega
    · rintro rfl
      omega
  · rintro w hw rfl
    have hpos := h.count_gone_fst hw
    omega

lemma Owns.free_apart (h : Owns g s) {n : NodeId} {rest : List NodeId}
    (hfree : s.nodelPool.free = n :: rest) :
    (∀ e ∈ g.live, e.anode ≠ n ∧ e.bnode ≠ n) ∧ ∀ w ∈ g.gone, w.1 ≠ n := by
  refine h.node_apart ?_
  rw [hfree, List.count_cons_self]
  omega

/-- A session outside the table and outside the flows on their way. -/
lemma Owns.session_apart (h : Owns g s) {i : SessionId}
    (hi : 0 < s.ipSessionPool.free.count i + s.auxSession.toList.count i
      + s.exporter.printedSession.count i) :
    (∀ e ∈ g.live, e.sess ≠ i) ∧ ∀ w ∈ g.gone, w.2 ≠ i := by
  have hone := h.session_count i
  refine ⟨?_, ?_⟩
  · rintro e he rfl
    have := count_map_pos (f := Entry.sess) he
    omega
  · rintro w hw rfl
    have hpos := count_map_pos (f := Prod.snd) hw
    rw [count_gone_snd] at hpos
    omega

lemma Owns.aux_apart (h : Owns g s) {i : SessionId} (haux : s.auxSession = some i) :
    (∀ e ∈ g.live, e.sess ≠ i) ∧ ∀ w ∈ g.gone, w.2 ≠ i := by
  refine h.session_apart ?_
  rw [haux, Option.toList_some, List.count_singleton_self]
  omega

lemma Entry.Linked.congr {nodeData : NodeId → Ptr} {ips ips' : SessionId → IPSession} {e : Entry}
    (h : e.Linked nodeData ips) (hsess : ips' e.sess = ips e.sess) : e.Linked nodeData ips' :=
  ⟨h.active, h.bucket, by rw [hsess, h.activeNode], by rw [hsess, h.currentFlow]⟩

end Unique

/-! ## Writing sessions -/

section Write

variable {g : Layout} {a : Flows Packet UInt64} {pend : List Packet} {s : State}

/-- The buckets and their order depend only on the keys of the flows in the table. -/
lemma Owns.filter_born_congr (h : Owns g s) (key : SessionId → Key)
    (hkey : ∀ e ∈ g.live, key e.sess = s.key e.sess) (f : Key → Bool) :
    g.born.filter (fun e => f (key e.sess)) = g.born.filter fun e => f (s.key e.sess) :=
  List.filter_congr fun e he => by rw [hkey e (h.bornPerm.mem_iff.mp he)]

/-- Writing sessions outside the table, such that records on their way out stay as they are. -/
lemma Rep.setIps (h : Rep g a pend s) {ips : SessionId → IPSession}
    (hlive : ∀ e ∈ g.live, ips e.sess = s.ips e.sess)
    (hgone : ∀ w ∈ g.gone, (ips w.2).record = s.record w.2)
    (hfree : ∀ i ∈ s.ipSessionPool.free, (ips i).incoming = .zero) :
    Rep g a pend { s with ips := ips } := by
  obtain ⟨ho, hl, hs⟩ := h
  have hkey : ∀ e ∈ g.live, (ips e.sess).incoming.key = s.key e.sess := by
    intro e he
    rw [hlive e he]
    rfl
  refine ⟨{ ho with
    linked := fun e he => (ho.linked e he).congr (hlive e he), bornOrder := fun k => ?_,
    table := fun index => ?_, cleared := hfree }, { hl with gone := fun w hw => ?_ },
    { hs with live := ?_, out := ?_ }⟩
  · have hb := ho.filter_born_congr (fun i => (ips i).incoming.key) hkey fun x => x = k
    refine hb.trans ((ho.bornOrder k).trans ?_)
    refine (List.filter_congr fun e he => ?_).symm
    show decide ((ips e.sess).incoming.key = k) = _
    rw [hkey e he]
  · rw [ho.table index]
    have hb := ho.filter_born_congr (fun i => (ips i).incoming.key) hkey
      fun x => x.index = index
    exact congrArg _ hb.symm
  · obtain ⟨l, hcomplete, hlife⟩ := hl.gone w hw
    refine ⟨l, hcomplete, ?_⟩
    show s.life w.2 = l ++ [.inserted, .expired (ips w.2).record]
    rw [hgone w hw, hlife]
  · rw [← hs.live]
    refine List.map_congr_left fun e he => ?_
    show (ips e.sess).record = (s.ips e.sess).record
    rw [hlive e he]
  · rw [← hs.out]
    show s.exported ++ g.gone.map (fun w => (ips w.2).record) = _
    exact congrArg _ (List.map_congr_left fun w hw => hgone w hw)

/-- Writing one session outside the table. -/
lemma Rep.setSession (h : Rep g a pend s) {i : SessionId} {v : IPSession}
    (hlive : ∀ e ∈ g.live, e.sess ≠ i) (hgone : ∀ w ∈ g.gone, w.2 = i → v.record = s.record i)
    (hfree : i ∈ s.ipSessionPool.free → v.incoming = .zero) :
    Rep g a pend (s.setSession i v) := by
  refine h.setIps (fun e he => State.setSession_of_ne s v (hlive e he)) (fun w hw => ?_)
    fun j hj => ?_
  · by_cases hi : w.2 = i
    · rw [hi, Function.update_self]
      exact hgone w hw hi
    · rw [Function.update_of_ne hi]
      rfl
  · by_cases hi : j = i
    · rw [hi, Function.update_self]
      exact hfree (hi ▸ hj)
    · rw [Function.update_of_ne hi]
      exact h.owns.cleared j hj

end Write

/-! ## One step of the export thread -/

/-- What the process thread works on. -/
structure Frame (g : Layout) (s : State) (g' : Layout) (s' : State) : Prop where
  live : g'.live = g.live
  flags : s'.flagsExpiredFlowList = s.flagsExpiredFlowList
  active : s'.activeFlowList = s.activeFlowList
  table : s'.flowTable = s.flowTable
  aux : s'.auxSession = s.auxSession
  auxData : ∀ i, s.auxSession = some i → s'.ips i = s.ips i
  naux : s'.naux = s.naux
  now : s'.lastPacketTimestamp = s.lastPacketTimestamp
  current : s'.current = s.current
  previous : s'.previous = s.previous
  previous2 : s'.previous2 = s.previous2
  inits : s'.inits = s.inits
  times : s'.times = s.times
  stopEt : s'.stopEt = s.stopEt

section Step

variable {g : Layout} {a : Flows Packet UInt64} {pend : List Packet} {s : State}

lemma popExpired_nil (h : s.expiredFlowList = []) (drain : Bool) (idle : ExportPc) :
    popExpired drain idle s = { s with exporter := idle } := by
  unfold popExpired
  split
  · rfl
  · next heq => exact absurd (h.symm.trans heq) (by simp)

lemma popExpired_cons {n : NodeId} {rest : List NodeId} (h : s.expiredFlowList = n :: rest)
    (drain : Bool) (idle : ExportPc) :
    popExpired drain idle s = { s with expiredFlowList := rest, exporter := .popped drain n } := by
  unfold popExpired
  split
  · next heq => exact absurd (h.symm.trans heq) (by simp)
  · next heq =>
      obtain ⟨rfl, rfl⟩ := List.cons.inj (h.symm.trans heq)
      rfl

/-- Popping, or finding nothing to pop. -/
lemma Rep.popExpired (h : Rep g a pend s) (hnode : s.exporter.node = [])
    (howed : s.exporter.owed = 0) (hprinted : s.exporter.printedSession = []) {drain : Bool}
    {idle : ExportPc} (hidle : idle.node = []) (hidlePopped : idle.poppedNode = [])
    (hidleOwed : idle.owed = 0) (hidlePrinted : idle.printedSession = [])
    (hdrain : drain = true → s.stopEt = true) (hidleDrain : idle.drains = true → s.stopEt = true) :
    ∃ g', Rep g' a pend (popExpired drain idle s) ∧ Frame g s g' (popExpired drain idle s) := by
  obtain ⟨ho, hl, hs⟩ := h
  have hpopped : s.exporter.poppedNode = [] := by
    cases hx : s.exporter <;> simp_all [ExportPc.node, ExportPc.poppedNode]
  have hhand : g.hand = [] := by
    have := ho.hand
    rw [hpopped, List.map_eq_nil_iff] at this
    exact this
  cases hexp : g.expired with
  | nil =>
      have hnil : s.expiredFlowList = [] := by rw [ho.expired, hexp, List.map_nil]
      rw [popExpired_nil hnil]
      refine ⟨g, ⟨{ ho with nodes := ?_, sessions := ?_, hand := ?_, drains := hidleDrain },
        { hl with counted := ?_, fresh := ?_ }, { hs with reach := hs.reach }⟩,
        ⟨rfl, rfl, rfl, rfl, rfl, fun _ _ => rfl, rfl, rfl, rfl, rfl, rfl, rfl, rfl, rfl⟩⟩
      · have hn := ho.nodes
        simp only [Layout.nodes, hnode, hidle] at hn ⊢
        exact hn
      · have hn := ho.sessions
        simp only [Layout.sessions, hprinted, hidlePrinted] at hn ⊢
        exact hn
      · rw [hhand, hidlePopped]
        rfl
      · have hc := hl.counted
        rw [howed] at hc
        simp only [hidleOwed]
        exact hc
      · intro h0
        obtain ⟨h1, h2, h3, h4, h5, h6⟩ := hl.fresh h0
        exact ⟨h1, h2, h3, h4, hidle, h6⟩
  | cons w rest =>
      have hcons : s.expiredFlowList = w.1 :: rest.map Prod.fst := by
        rw [ho.expired, hexp, List.map_cons]
      rw [popExpired_cons hcons]
      have hgone : Layout.gone { g with expired := rest, hand := [w] } = g.gone := by
        simp only [Layout.gone, hexp, hhand]
        rfl
      refine ⟨{ g with expired := rest, hand := [w] }, ⟨{ ho with
        nodes := ?_, sessions := ?_, expired := rfl, hand := rfl, left := ?_, drains := hdrain },
        { hl with gone := ?_, rest := ?_, counted := ?_, tally := ?_, fresh := ?_ },
        { hs with out := ?_ }⟩,
        ⟨rfl, rfl, rfl, rfl, rfl, fun _ _ => rfl, rfl, rfl, rfl, rfl, rfl, rfl, rfl, rfl⟩⟩
      · refine List.Perm.trans ?_ ho.nodes
        rw [List.perm_iff_count]
        intro x
        simp only [Layout.nodes, hexp, hnode, List.map_cons, List.count_append, List.count_cons]
        simp only [ExportPc.node, List.count_cons, List.count_nil]
        omega
      · refine List.Perm.trans ?_ ho.sessions
        rw [List.perm_iff_count]
        intro x
        simp only [Layout.sessions, hexp, hprinted, hhand, List.map_cons, List.map_nil,
          List.count_append, List.count_cons, List.count_nil]
        simp only [ExportPc.printedSession, List.count_nil]
        omega
      · rw [hgone]
        exact ho.left
      · rw [hgone]
        exact hl.gone
      · rw [hgone]
        exact hl.rest
      · have hc := hl.counted
        rw [howed] at hc
        exact hc
      · rw [hgone]
        exact hl.tally
      · intro h0
        obtain ⟨-, -, h3, -⟩ := hl.fresh h0
        simp [Layout.gone, hexp] at h3
      · rw [hgone]
        exact hs.out

lemma sessionAt_eq {n : NodeId} {i : SessionId} (h : s.nodeData n = .session i) :
    s.sessionAt n = some i := by
  rw [State.sessionAt, h]

/-- `export_data` has written the record of `i`. -/
def State.printed (s : State) (drain : Bool) (n : NodeId) (i : SessionId) : State :=
  ({ s with exporter := .printed drain n i } : State).log (.exported i (s.record i))

section Print

variable {drain : Bool} {n : NodeId} {i : SessionId}

lemma gone_of_hand (hhand : g.hand = [(n, i)]) : g.gone = (n, i) :: (g.expired ++ g.flags) := by
  simp [Layout.gone, hhand]

/-- The session in the hand is nowhere else. -/
lemma Owns.hand_apart (h : Owns g s) (hhand : g.hand = [(n, i)]) :
    (∀ e ∈ g.live, e.sess ≠ i) ∧ (∀ w ∈ g.expired ++ g.flags, w.2 ≠ i)
      ∧ i ∉ s.ipSessionPool.free ∧ s.auxSession ≠ some i := by
  have hone := h.session_count i
  have hcount : (g.hand.map Prod.snd).count i = 1 := by simp [hhand]
  refine ⟨?_, ?_, ?_, ?_⟩
  · rintro e he rfl
    have := count_map_pos (f := Entry.sess) he
    omega
  · rintro w hw rfl
    have := count_map_pos (f := Prod.snd) hw
    rw [List.map_append, List.count_append] at this
    omega
  · intro hmem
    have := List.count_pos_iff.mpr hmem
    omega
  · intro haux
    rw [haux, Option.toList_some, List.count_singleton_self] at hone
    omega

lemma life_printed_of_ne (s : State) {j : SessionId} (hj : j ≠ i) :
    (s.printed drain n i).life j = s.life j := by
  rw [State.printed, life_log]
  simp [Event.life?, hj.symm]
  rfl

lemma life_printed (s : State) :
    (s.printed drain n i).life i = s.life i ++ [.exported (s.record i)] := by
  rw [State.printed, life_log]
  simp only [Event.life?, if_true, Option.toList_some]
  rfl

lemma exported_printed (s : State) :
    (s.printed drain n i).exported = s.exported ++ [s.record i] :=
  exported_log _ _

lemma Owns.printed (h : Owns g s) (hpc : s.exporter = .popped drain n) (hhand : g.hand = [(n, i)]) :
    Owns { g with hand := [] } (s.printed drain n i) := by
  refine { h with
    nodes := ?_, sessions := ?_, hand := rfl, left := ?_,
    drains := fun hd => h.drains (hpc.symm ▸ hd) }
  · have hn := h.nodes
    simp only [Layout.nodes, hpc] at hn
    exact hn
  · refine List.Perm.trans ?_ h.sessions
    rw [List.perm_iff_count]
    intro x
    simp only [Layout.sessions, hpc, hhand, State.printed, State.log, ExportPc.printedSession,
      List.map_cons, List.map_nil, List.count_append, List.count_cons, List.count_nil]
    omega
  · intro w hw
    refine h.left w ?_
    rw [gone_of_hand hhand]
    exact List.mem_cons_of_mem _ hw

/-- The cycle of the flow is complete. -/
lemma Lives.printed (h : Lives g s) (ho : Owns g s) (hpc : s.exporter = .popped drain n)
    (hhand : g.hand = [(n, i)]) : Lives { g with hand := [] } (s.printed drain n i) := by
  have hgone := gone_of_hand hhand
  obtain ⟨hlive, hrest, -⟩ := ho.hand_apart hhand
  refine ⟨fun e he => ?_, fun w hw => ?_, fun j hj1 hj2 hj3 => ?_, ?_, fun hi => ?_, fun hi => ?_,
    fun hi => ?_⟩
  · rw [life_printed_of_ne s (hlive e he)]
    exact h.live e he
  · rw [life_printed_of_ne s (hrest w hw)]
    exact h.gone w (by rw [hgone]; exact List.mem_cons_of_mem _ hw)
  · by_cases hj : j = i
    · obtain ⟨l, hcomplete, hlife⟩ := h.gone (n, i) (by simp [hgone])
      rw [hj, life_printed, hlife, List.append_assoc]
      exact Complete.cycle (s.record i) hcomplete
    · rw [life_printed_of_ne s hj]
      refine h.rest j hj1 ?_ hj3
      rw [hgone, List.map_cons, List.mem_cons, not_or]
      exact ⟨hj, hj2⟩
  · have hc := h.counted
    rw [hpc] at hc
    rw [exported_printed, List.length_append, List.length_singleton]
    exact congrArg (· + 1) hc
  · rw [State.printed, inits_log] at hi
    have hc := h.tally hi
    rw [hgone, List.length_cons] at hc
    have hopened : (s.printed drain n i).insertions = s.insertions :=
      (insertions_log _ _).trans (Nat.add_zero _)
    show _ = _ + g.live.length + (g.expired ++ g.flags).length
    rw [exported_printed, List.length_append, List.length_singleton, hopened, hc]
    omega
  · rw [State.printed, inits_log] at hi
    exact h.keeps hi
  · rw [State.printed, inits_log] at hi
    obtain ⟨-, -, h3, -⟩ := h.fresh hi
    rw [hgone] at h3
    exact absurd h3 (by simp)

lemma Shows.printed (h : Shows g a pend s) (hhand : g.hand = [(n, i)]) :
    Shows { g with hand := [] } a pend (s.printed drain n i) := by
  refine { h with out := ?_, times := ?_, arrivals := ?_, notes := ?_, intact := ?_ }
  · have hout := h.out
    rw [gone_of_hand hhand, List.map_cons] at hout
    rw [exported_printed, List.append_assoc]
    exact hout
  · rw [State.printed, times_log, h.times]
    exact (List.append_nil _).symm
  · rw [State.printed, reached_log]
    exact (List.append_nil _).trans h.arrivals
  · rw [State.printed, notes_log, h.notes]
    exact (List.append_nil _).symm
  · intro hi
    rw [State.printed, inits_log] at hi
    rw [State.printed, nodeErrors_log]
    exact h.intact hi

/-- Handing the flow to `export_data`. -/
lemma Rep.printFlow (h : Rep g a pend s) (hpc : s.exporter = .popped drain n) :
    ∃ g', Rep g' a pend (exportStep s) ∧ Frame g s g' (exportStep s) := by
  obtain ⟨i, hhand⟩ : ∃ i, g.hand = [(n, i)] := by
    have hmap := h.owns.hand
    rw [hpc] at hmap
    obtain ⟨w, hw, hfst⟩ := List.map_eq_singleton_iff.mp hmap
    exact ⟨w.2, by rw [hw, ← hfst]⟩
  have hmem : (n, i) ∈ g.gone := by simp [gone_of_hand hhand]
  obtain ⟨hlive, -, hfree, haux⟩ := h.owns.hand_apart hhand
  -- the export time is no part of the record
  set t := s.setSession i { s.ips i with exportationTimestamp := s.lastPacketTimestamp } with ht
  have hrep : Rep g a pend t := h.setSession hlive (fun _ _ _ => rfl) fun hi => absurd hi hfree
  have hstep : exportStep s = t.printed drain n i := by
    rw [exportStep, hpc]
    simp only [sessionAt_eq (h.owns.left _ hmem)]
    rfl
  rw [hstep]
  refine ⟨{ g with hand := [] }, ⟨hrep.owns.printed hpc hhand, hrep.lives.printed hrep.owns hpc hhand,
    hrep.shows.printed hhand⟩, rfl, rfl, rfl, rfl, rfl, fun j hj => ?_, rfl, rfl, rfl, rfl, rfl, ?_, ?_,
    rfl⟩
  · refine State.setSession_of_ne _ _ fun heq => ?_
    rw [heq] at hj
    exact haux hj
  · rw [State.printed, inits_log]
    rfl
  · rw [State.printed, times_log]
    exact List.append_nil _

end Print

/-- Giving the session back. -/
lemma Rep.releaseSession (h : Rep g a pend s) {drain : Bool} {n : NodeId} {i : SessionId}
    (hpc : s.exporter = .printed drain n i) :
    ∃ g', Rep g' a pend (exportStep s) ∧ Frame g s g' (exportStep s) := by
  have hprinted : s.exporter.printedSession = [i] := by rw [hpc]; rfl
  obtain ⟨hlive, hgone⟩ := h.owns.session_apart (i := i) (by simp [hprinted])
  have hone := h.owns.session_count i
  rw [hprinted, List.count_singleton_self] at hone
  have hlt : s.ipSessionPool.free.length < maxPoolSession := by
    have hlen := h.owns.session_length
    rw [hprinted, List.length_singleton] at hlen
    omega
  obtain ⟨q, hq, hqfree, hqok⟩ := h.owns.sessionPool.release hlt i
  set t := s.setSession i { s.ips i with incoming := .zero } with ht
  have hstep : exportStep s = { t with
      ipSessionPool := q, usedSession := t.usedSession - 1, exporter := .released drain n } := by
    have hrel : releaseIPSession s i
        = { t with ipSessionPool := q, usedSession := t.usedSession - 1 } := by
      rw [releaseIPSession]
      simp only
      have hpool : t.ipSessionPool.release i = some q := hq
      rw [← ht, hpool]
    rw [exportStep, hpc]
    simp only [hrel]
  obtain ⟨ho, hl, hs⟩ : Rep g a pend t :=
    h.setSession hlive (fun w hw heq => absurd heq (hgone w hw)) fun _ => rfl
  have hpc' : t.exporter = .printed drain n i := hpc
  rw [hstep]
  refine ⟨g, ⟨{ ho with
    nodes := ?_, sessions := ?_, sessionPool := hqok, hand := ?_, cleared := ?_,
    drains := fun hd => ho.drains (hpc'.symm ▸ hd) },
    { hl with counted := ?_, fresh := ?_ }, { hs with reach := hs.reach }⟩, ?_⟩
  · have hn := ho.nodes
    simp only [Layout.nodes, hpc'] at hn
    exact hn
  · refine List.Perm.trans ?_ ho.sessions
    rw [List.perm_iff_count]
    intro x
    have hfree : t.ipSessionPool.free = s.ipSessionPool.free := rfl
    simp only [Layout.sessions, hpc', hqfree, hfree, ExportPc.printedSession, List.count_append,
      List.count_nil]
    omega
  · have hh := ho.hand
    rw [hpc'] at hh
    exact hh
  · intro j hj
    rw [hqfree, List.mem_append, List.mem_singleton] at hj
    rcases hj with hj | rfl
    · exact ho.cleared j hj
    · show (t.ips j).incoming = .zero
      rw [ht, State.setSession_self]
  · have hc := hl.counted
    rw [hpc'] at hc
    exact hc
  · intro hi
    obtain ⟨-, -, -, -, h5, -⟩ := hl.fresh hi
    rw [hpc'] at h5
    exact absurd h5 (by simp [ExportPc.node])
  · refine ⟨rfl, rfl, rfl, rfl, rfl, ?_, rfl, rfl, rfl, rfl, rfl, rfl, rfl, rfl⟩
    intro j hj
    refine State.setSession_of_ne _ _ fun heq => ?_
    rw [hj, heq, Option.toList_some, List.count_singleton_self] at hone
    omega

/-- Giving the node back. -/
lemma Rep.releaseNode (h : Rep g a pend s) {drain : Bool} {n : NodeId}
    (hpc : s.exporter = .released drain n) :
    ∃ g', Rep g' a pend (exportStep s) ∧ Frame g s g' (exportStep s) := by
  obtain ⟨ho, hl, hs⟩ := h
  have hnode : s.exporter.node = [n] := by rw [hpc]; rfl
  have hlt : s.nodelPool.free.length < maxPoolNode := by
    have hlen := ho.node_length
    rw [hnode, List.length_singleton] at hlen
    omega
  obtain ⟨q, hq, hqfree, hqok⟩ := ho.nodePool.release hlt n
  obtain ⟨idle, hidle, hidleNode, hidlePopped, hidlePrinted, hidleOwed, hidleDrains⟩ :
      ∃ idle : ExportPc, idle = (if drain then .draining else .loop) ∧ idle.node = []
        ∧ idle.poppedNode = [] ∧ idle.printedSession = [] ∧ idle.owed = 0
        ∧ idle.drains = drain := by
    cases drain
    · exact ⟨_, rfl, rfl, rfl, rfl, rfl, rfl⟩
    · exact ⟨_, rfl, rfl, rfl, rfl, rfl, rfl⟩
  have hstep : exportStep s = { s with
      nodelPool := q, flowsTotal := s.flowsTotal + 1, exporter := idle } := by
    rw [exportStep, hpc]
    simp only [releaseNodel, hq, hidle]
  rw [hstep]
  refine ⟨g, ⟨{ ho with
    nodes := ?_, sessions := ?_, nodePool := hqok, hand := ?_,
    drains := fun hd => ho.drains (hpc.symm ▸ hidleDrains.symm.trans hd) },
    { hl with counted := ?_, fresh := ?_ }, { hs with reach := hs.reach }⟩,
    ⟨rfl, rfl, rfl, rfl, rfl, fun _ _ => rfl, rfl, rfl, rfl, rfl, rfl, rfl, rfl, rfl⟩⟩
  · refine List.Perm.trans ?_ ho.nodes
    rw [List.perm_iff_count]
    intro x
    simp only [Layout.nodes, hnode, hidleNode, hqfree, List.count_append, List.count_nil]
    omega
  · have hn := ho.sessions
    have hp : s.exporter.printedSession = [] := by rw [hpc]; rfl
    simp only [Layout.sessions, hp] at hn
    simp only [Layout.sessions, hidlePrinted]
    exact hn
  · have hh := ho.hand
    rw [hpc] at hh
    exact hh.trans hidlePopped.symm
  · have hc := hl.counted
    rw [hpc] at hc
    show s.flowsTotal + 1 + idle.owed = s.exported.length
    rw [hidleOwed]
    exact hc
  · intro hi
    obtain ⟨-, -, -, -, h5, -⟩ := hl.fresh hi
    rw [hnode] at h5
    exact absurd h5 (by simp)

/-- **A step of the export thread keeps the meaning of the store** and all that the process thread
works on. -/
lemma Rep.exportStep (h : Rep g a pend s) :
    ∃ g', Rep g' a pend (exportStep s) ∧ Frame g s g' (exportStep s) := by
  cases hpc : s.exporter with
  | loop =>
      have hnode : s.exporter.node = [] := by rw [hpc]; rfl
      have howed : s.exporter.owed = 0 := by rw [hpc]; rfl
      have hprinted : s.exporter.printedSession = [] := by rw [hpc]; rfl
      have hstep : Flow.exportStep s
          = if s.stopEt then { s with exporter := .draining } else Flow.popExpired false .loop s := by
        rw [Flow.exportStep, hpc]
      rw [hstep]
      split_ifs with hstop
      · obtain ⟨ho, hl, hs⟩ := h
        refine ⟨g, ⟨{ ho with nodes := ?_, sessions := ?_, hand := ?_, drains := fun _ => hstop },
          { hl with counted := ?_, fresh := ?_ }, { hs with reach := hs.reach }⟩,
          ⟨rfl, rfl, rfl, rfl, rfl, fun _ _ => rfl, rfl, rfl, rfl, rfl, rfl, rfl, rfl, rfl⟩⟩
        · have hn := ho.nodes
          simp only [Layout.nodes, hpc] at hn
          exact hn
        · have hn := ho.sessions
          simp only [Layout.sessions, hpc] at hn
          exact hn
        · have hh := ho.hand
          rw [hpc] at hh
          exact hh
        · have hc := hl.counted
          rw [hpc] at hc
          exact hc
        · intro h0
          obtain ⟨h1, h2, h3, h4, -, h6⟩ := hl.fresh h0
          exact ⟨h1, h2, h3, h4, rfl, h6⟩
      · exact h.popExpired hnode howed hprinted rfl rfl rfl rfl (fun hd => absurd hd (by simp))
          fun hd => absurd hd (by simp [ExportPc.drains])
  | popped drain n => exact h.printFlow hpc
  | printed drain n i => exact h.releaseSession hpc
  | released drain n => exact h.releaseNode hpc
  | draining =>
      have hnode : s.exporter.node = [] := by rw [hpc]; rfl
      have howed : s.exporter.owed = 0 := by rw [hpc]; rfl
      have hprinted : s.exporter.printedSession = [] := by rw [hpc]; rfl
      have hstep : Flow.exportStep s = Flow.popExpired true .finished s := by
        rw [Flow.exportStep, hpc]
      have hstop : s.stopEt = true := h.owns.drains (by rw [hpc]; rfl)
      rw [hstep]
      exact h.popExpired hnode howed hprinted rfl rfl rfl rfl (fun _ => hstop) fun _ => hstop
  | finished =>
      have hstep : Flow.exportStep s = s := by
        rw [Flow.exportStep, hpc]
      rw [hstep]
      exact ⟨g, h, ⟨rfl, rfl, rfl, rfl, rfl, fun _ _ => rfl, rfl, rfl, rfl, rfl, rfl, rfl, rfl, rfl⟩⟩

end Step

end Flow
