import XdpFlows.Core.Guarantee
import XdpFlows.Flow.Clock

/-!
# Expiring flows

`cleanup_flows` walks the active list from its end.  Every turn of the loop takes the last flow out
of the table and out of the active list and puts it behind the flows expired before it, until it
meets one that has not expired (`Rep.cleanupStep`); then all of them go behind the flows the export
thread has yet to pop (`Rep.spliceExpired`).  In the abstract store a turn is one `expire` step, and
the final splice is invisible.
-/

namespace Flow

open SessionWindow Sections

section Cleanup

variable {g : Layout} {a : Flows Packet UInt64} {pend : List Packet} {s : State}

/-- The last flow of the active list and the last session of the abstract store. -/
lemma Shows.live_concat (h : Shows g a pend s) {L : List Entry} {e : Entry}
    (hlive : g.live = L ++ [e]) :
    ∃ L' S, a.live = L' ++ [S] ∧ L.map (fun e => s.record e.sess) = L'.map recordOf
      ∧ s.record e.sess = recordOf S := by
  have hmap := h.live
  rw [hlive, List.map_append, List.map_cons, List.map_nil, eq_comm,
    List.map_eq_append_iff] at hmap
  obtain ⟨L', M, heq, hL, hM⟩ := hmap
  obtain ⟨S, hS, hrec⟩ := List.map_eq_singleton_iff.mp hM
  exact ⟨L', S, by rw [heq, hS], hL.symm, hrec.symm⟩

lemma Owns.anodes_nodup (h : Owns g s) : (g.live.map Entry.anode).Nodup := by
  rw [List.nodup_iff_count_le_one]
  intro x
  have := h.node_count x
  omega

lemma Owns.bnodes_nodup (h : Owns g s) : (g.live.map Entry.bnode).Nodup := by
  rw [List.nodup_iff_count_le_one]
  intro x
  have := h.node_count x
  omega

lemma Owns.sessions_nodup (h : Owns g s) : (g.live.map Entry.sess).Nodup := by
  rw [List.nodup_iff_count_le_one]
  intro x
  have := h.session_count x
  omega

/-- A flow in the table is not on its way out. -/
lemma Owns.gone_ne (h : Owns g s) {e : Entry} (he : e ∈ g.live) : ∀ w ∈ g.gone, w.2 ≠ e.sess := by
  intro w hw heq
  have hone := h.session_count e.sess
  have hpos := count_map_pos (f := Entry.sess) he
  have hw' := count_map_pos (f := Prod.snd) hw
  rw [heq, count_gone_snd] at hw'
  omega

/-- In a list without duplicates that ends in `x`, `x` is found last. -/
lemma concat_facts {l : List ℕ} {x : ℕ} (h : (l ++ [x]).Nodup) :
    (l ++ [x]).erase x = l ∧ listGetPrevNode (l ++ [x]) x = l.getLast? := by
  have hx : x ∉ l := by
    intro hmem
    exact (List.nodup_append.mp h).2.2 x hmem x (List.mem_singleton.mpr rfl) rfl
  constructor
  · rw [List.erase_append_right _ hx, List.erase_cons_head, List.append_nil]
  · have hall : ∀ y ∈ l, decide (y ≠ x) = true := by
      intro y hy
      simpa using fun heq : y = x => hx (heq ▸ hy)
    rw [listGetPrevNode, List.takeWhile_append_of_pos hall, List.takeWhile_cons]
    simp

/-- What the buckets hold without the flow `e`. -/
lemma Owns.table_erase (h : Owns g s) {e : Entry} (he : e ∈ g.live) (index : ℕ) :
    Function.update s.flowTable (s.key e.sess).index
        ((s.flowTable (s.key e.sess).index).erase e.bnode) index
      = ((g.born.filter fun x => x.bnode ≠ e.bnode).filter
          fun x => (s.key x.sess).index = index).map Entry.bnode := by
  have hborn : (g.born.map Entry.bnode).Nodup :=
    ((h.bornPerm.map Entry.bnode).nodup_iff).mpr h.bnodes_nodup
  rw [List.filter_comm]
  by_cases hi : index = (s.key e.sess).index
  · subst hi
    rw [Function.update_self, h.table]
    have hnodup : ((g.born.filter fun x => (s.key x.sess).index = (s.key e.sess).index).map
        Entry.bnode).Nodup := hborn.sublist (List.filter_sublist.map _)
    rw [hnodup.erase_eq_filter, List.filter_map]
    congr 2
    funext x
    simp [bne, beq_eq_decide]
  · rw [Function.update_of_ne hi, h.table]
    congr 1
    refine (List.filter_eq_self.mpr fun x hx => ?_).symm
    obtain ⟨hxmem, hxi⟩ := List.mem_filter.mp hx
    simp only [ne_eq, decide_not, Bool.not_eq_true', decide_eq_false_iff_not]
    intro hb
    -- two flows with the same bucket node are the same flow
    have hxe : x = e := by
      have hxl := h.bornPerm.mem_iff.mp hxmem
      exact List.inj_on_of_nodup_map h.bnodes_nodup hxl he hb
    rw [hxe] at hxi
    exact hi (of_decide_eq_true hxi).symm

/-- What a turn of the loop leaves behind if the flow `e` has expired. -/
def expireEntry (s : State) (e : Entry) (pool : Pool) : State :=
  ({ s.log (.tested (s.ips e.sess).lastpacketTimestamp s.lastPacketTimestamp) with
      flowTable := Function.update s.flowTable (s.key e.sess).index
        ((s.flowTable (s.key e.sess).index).erase e.bnode)
      nodeData := Function.update s.nodeData e.anode (.session e.sess)
      nodelPool := pool
      activeFlowList := s.activeFlowList.erase e.anode
      flagsExpiredFlowList := s.flagsExpiredFlowList ++ [e.anode] } : State).log
    (.expired e.sess (s.record e.sess) s.lastPacketTimestamp)

lemma expireEntry_clock (s : State) (e : Entry) (pool : Pool) :
    (expireEntry s e pool).clock = s.clock :=
  (clock_log _ rfl rfl).trans (clock_log s rfl rfl)

lemma cleanupStep_expired {e : Entry} {pool : Pool} (hlink : e.Linked s.nodeData s.ips)
    (hexp : hasExpired (s.ips e.sess).lastpacketTimestamp s.lastPacketTimestamp = true)
    (hpool : s.nodelPool.release e.bnode = some pool) :
    cleanupStep e.anode s
      = (expireEntry s e pool, listGetPrevNode s.activeFlowList e.anode) := by
  unfold cleanupStep
  simp only [hlink.active, State.sessionAt, hlink.bucket]
  have hnow : (s.log (.tested (s.ips e.sess).lastpacketTimestamp
      s.lastPacketTimestamp)).lastPacketTimestamp = s.lastPacketTimestamp := rfl
  rw [hnow, if_pos hexp]
  have hunlink : unlinkSession (s.log (.tested (s.ips e.sess).lastpacketTimestamp
      s.lastPacketTimestamp)) e.anode e.bnode e.sess
      = { s.log (.tested (s.ips e.sess).lastpacketTimestamp s.lastPacketTimestamp) with
          flowTable := Function.update s.flowTable (s.key e.sess).index
            ((s.flowTable (s.key e.sess).index).erase e.bnode)
          nodeData := Function.update s.nodeData e.anode (.session e.sess)
          nodelPool := pool } := by
    unfold unlinkSession releaseNodel
    simp only [State.log, State.setBucket, State.setData, hpool, hlink.bucket]
    rfl
  rw [hunlink]
  rfl

lemma cleanupStep_kept {e : Entry} (hlink : e.Linked s.nodeData s.ips)
    (hexp : hasExpired (s.ips e.sess).lastpacketTimestamp s.lastPacketTimestamp = false) :
    cleanupStep e.anode s
      = (s.log (.tested (s.ips e.sess).lastpacketTimestamp s.lastPacketTimestamp), none) := by
  unfold cleanupStep
  simp only [hlink.active, State.sessionAt, hlink.bucket]
  have hnow : (s.log (.tested (s.ips e.sess).lastpacketTimestamp
      s.lastPacketTimestamp)).lastPacketTimestamp = s.lastPacketTimestamp := rfl
  rw [hnow, hexp]
  rfl

/-- The last flow leaves the table and the active list. -/
lemma Owns.expireEntry (h : Owns g s) {L : List Entry} {e : Entry} (hlive : g.live = L ++ [e])
    {pool : Pool} (hfree : pool.free = s.nodelPool.free ++ [e.bnode])
    (hok : pool.Ok maxPoolNode) :
    Owns { g with
        live := L
        born := g.born.filter fun x => x.bnode ≠ e.bnode
        flags := g.flags ++ [(e.anode, e.sess)] } (expireEntry s e pool) := by
  have hmem : e ∈ g.live := by simp [hlive]
  have hnodes := h.node_count
  have hgone : ∀ w ∈ g.gone, w.1 ≠ e.anode := by
    rintro w hw heq
    have hone := hnodes e.anode
    have hpos := count_map_pos (f := Entry.anode) hmem
    have hw' := h.count_gone_fst hw
    rw [heq] at hw'
    omega
  have hL : g.live.filter (fun x => x.bnode ≠ e.bnode) = L := by
    rw [hlive, List.filter_append]
    have hself : L.filter (fun x => x.bnode ≠ e.bnode) = L := by
      refine List.filter_eq_self.mpr fun x hx => ?_
      have hnd := h.bnodes_nodup
      rw [hlive, List.map_append] at hnd
      have hne := (List.nodup_append.mp hnd).2.2 x.bnode (List.mem_map_of_mem hx) e.bnode (by simp)
      simpa using hne
    rw [hself]
    simp
  have hact : s.activeFlowList = L.map Entry.anode ++ [e.anode] := by
    rw [h.active, hlive, List.map_append]
    rfl
  have hnd : (L.map Entry.anode ++ [e.anode]).Nodup := by
    rw [← hact, h.active]
    exact h.anodes_nodup
  refine ⟨?_, ?_, hok, h.sessionPool, ?_, h.expired, ?_, h.hand, ?_, ?_, ?_, ?_, ?_, h.cleared,
    ?_, h.drains, h.noFault⟩
  · refine List.Perm.trans ?_ h.nodes
    rw [List.perm_iff_count]
    intro x
    simp only [Layout.nodes, Flow.expireEntry, State.log, hfree, hlive, List.map_append,
      List.map_cons, List.map_nil, List.count_append]
    omega
  · refine List.Perm.trans ?_ h.sessions
    rw [List.perm_iff_count]
    intro x
    simp only [Layout.sessions, Flow.expireEntry, State.log, hlive, List.map_append,
      List.map_cons, List.map_nil, List.count_append]
    omega
  · show s.activeFlowList.erase e.anode = L.map Entry.anode
    rw [hact, (concat_facts hnd).1]
  · show s.flagsExpiredFlowList ++ [e.anode] = (g.flags ++ [(e.anode, e.sess)]).map Prod.fst
    rw [h.flags, List.map_append]
    rfl
  · intro x hx
    have hx' : x ∈ g.live := by
      rw [hlive]
      exact List.mem_append_left _ hx
    have hxa : x.anode ≠ e.anode := by
      intro heq
      refine (List.nodup_append.mp hnd).2.2 x.anode (List.mem_map_of_mem hx) e.anode (by simp) heq
    have hxb : x.bnode ≠ e.anode := by
      intro heq
      have hone := hnodes e.anode
      have h1 := count_map_pos (f := Entry.bnode) hx'
      have h2 := count_map_pos (f := Entry.anode) hmem
      rw [heq] at h1
      omega
    obtain ⟨h1, h2, h3, h4⟩ := h.linked x hx'
    refine ⟨?_, ?_, h3, h4⟩
    · show Function.update s.nodeData e.anode _ x.anode = _
      rw [Function.update_of_ne hxa, h1]
    · show Function.update s.nodeData e.anode _ x.bnode = _
      rw [Function.update_of_ne hxb, h2]
  · intro w hw
    show Function.update s.nodeData e.anode _ w.1 = _
    simp only [Layout.gone, List.mem_append, List.mem_singleton, ← or_assoc] at hw
    rcases hw with hw | rfl
    · have hw' : w ∈ g.gone := by
        simp only [Layout.gone, List.mem_append]
        exact hw
      rw [Function.update_of_ne (hgone w hw'), h.left w hw']
    · rw [Function.update_self]
  · have hp := h.bornPerm.filter fun x => x.bnode ≠ e.bnode
    rwa [hL] at hp
  · intro k
    show (g.born.filter fun x => x.bnode ≠ e.bnode).filter (fun x => s.key x.sess = k)
      = L.filter fun x => s.key x.sess = k
    rw [List.filter_comm, h.bornOrder k, List.filter_comm, hL]
  · exact h.table_erase hmem
  · intro n hn
    obtain ⟨i, hi, hdata⟩ := h.naux n hn
    refine ⟨i, hi, ?_⟩
    show Function.update s.nodeData e.anode _ n = _
    have hne : n ≠ e.anode := by
      intro heq
      have hone := hnodes e.anode
      have h2 := count_map_pos (f := Entry.anode) hmem
      have h3 : s.naux.toList.count e.anode = 1 := by
        have hn' : s.naux = some n := hn
        rw [hn', heq]
        simp
      omega
    rw [Function.update_of_ne hne, hdata]

/-- The flow is now one of those that leave. -/
lemma Owns.expireEntry_still (h : Owns g s) {L : List Entry} {e : Entry} (hlive : g.live = L ++ [e])
    {pool : Pool} (hfree : pool.free = s.nodelPool.free ++ [e.bnode]) (hok : pool.Ok maxPoolNode)
    (hexp : hasExpired (s.ips e.sess).lastpacketTimestamp s.lastPacketTimestamp = true) :
    Still s (Flow.expireEntry s e pool) := by
  have h' := h.expireEntry hlive hfree hok
  have hmem : e ∈ g.live := by simp [hlive]
  refine ⟨fun i hi => ?_, fun i hi => ?_, fun _ _ _ => rfl, fun i hi => ?_, ?_⟩
  · obtain ⟨x, hx, rfl⟩ := h'.inTable_iff.mp hi
    have hx : x ∈ L := hx
    exact h.inTable_iff.mpr ⟨x, by simp [hlive, hx], rfl⟩
  · obtain ⟨w, hw, rfl⟩ := h'.leaving_iff.mp hi
    have hw : w ∈ g.gone ∨ w = (e.anode, e.sess) := by
      simp only [Layout.gone, List.mem_append, List.mem_singleton] at hw ⊢
      tauto
    rcases hw with hw | rfl
    · exact Or.inr (h.leaving_iff.mpr ⟨w, hw, rfl⟩)
    · exact Or.inl (h.inTable_iff.mpr ⟨e, hmem, rfl⟩)
  · obtain ⟨x, hx, rfl⟩ := h.inTable_iff.mp hi
    rw [hlive, List.mem_append, List.mem_singleton] at hx
    rcases hx with hx | rfl
    · exact Or.inl (h'.inTable_iff.mpr ⟨x, hx, rfl⟩)
    · exact Or.inr (Or.inl hexp)
  · refine ⟨[.tested (s.ips e.sess).lastpacketTimestamp s.lastPacketTimestamp,
      .expired e.sess (s.record e.sess) s.lastPacketTimestamp], ?_, ?_⟩
    · simp [Flow.expireEntry, State.log]
    · rintro x hx
      simp only [List.mem_cons, List.not_mem_nil, or_false] at hx
      rcases hx with rfl | rfl
      · exact Event.aside_of s rfl rfl
      · exact Event.aside_of s rfl rfl

/-- The story of the flow goes on. -/
lemma Lives.expireEntry (h : Lives g s) (ho : Owns g s) {L : List Entry} {e : Entry}
    (hlive : g.live = L ++ [e]) (pool : Pool) (born : List Entry) :
    Lives { g with live := L, born := born, flags := g.flags ++ [(e.anode, e.sess)] }
      (expireEntry s e pool) := by
  have hmem : e ∈ g.live := by simp [hlive]
  have hne : ∀ x ∈ L, x.sess ≠ e.sess := by
    intro x hx heq
    have hnd := ho.sessions_nodup
    rw [hlive, List.map_append] at hnd
    exact (List.nodup_append.mp hnd).2.2 x.sess (List.mem_map_of_mem hx) e.sess (by simp) heq
  have hgne := ho.gone_ne hmem
  have hgone : Layout.gone { g with
      live := L, born := born, flags := g.flags ++ [(e.anode, e.sess)] }
      = g.gone ++ [(e.anode, e.sess)] := by
    simp [Layout.gone]
  have hlife : ∀ i, (Flow.expireEntry s e pool).life i
      = s.life i ++ if e.sess = i then [.expired (s.record e.sess)] else [] := by
    intro i
    rw [Flow.expireEntry, life_log]
    have hstart : ({ s.log (.tested (s.ips e.sess).lastpacketTimestamp s.lastPacketTimestamp) with
        flowTable := Function.update s.flowTable (s.key e.sess).index
          ((s.flowTable (s.key e.sess).index).erase e.bnode)
        nodeData := Function.update s.nodeData e.anode (.session e.sess)
        nodelPool := pool
        activeFlowList := s.activeFlowList.erase e.anode
        flagsExpiredFlowList := s.flagsExpiredFlowList ++ [e.anode] } : State).life i
          = s.life i := (life_log _ _ i).trans (List.append_nil _)
    rw [hstart]
    simp only [Event.life?]
    split_ifs <;> rfl
  have hexp : (Flow.expireEntry s e pool).exported = s.exported := by
    rw [Flow.expireEntry, exported_log]
    exact (List.append_nil _).trans ((exported_log _ _).trans (List.append_nil _))
  have hinits : (Flow.expireEntry s e pool).inits = s.inits := by
    rw [Flow.expireEntry, inits_log]
    exact inits_log _ _
  have hins : (Flow.expireEntry s e pool).insertions = s.insertions := by
    rw [Flow.expireEntry, insertions_log]
    exact insertions_log _ _
  refine ⟨?_, ?_, ?_, ?_, ?_, ?_, ?_⟩
  · intro x hx
    rw [hlife, if_neg (hne x hx).symm, List.append_nil]
    exact h.live x (by rw [hlive]; exact List.mem_append_left _ hx)
  · intro w hw
    rw [hgone, List.mem_append, List.mem_singleton] at hw
    rcases hw with hw | rfl
    · rw [hlife, if_neg (hgne w hw).symm, List.append_nil]
      exact h.gone w hw
    · obtain ⟨l, hcomplete, hl⟩ := h.live e hmem
      refine ⟨l, hcomplete, ?_⟩
      rw [hlife, if_pos rfl, hl, List.append_assoc]
      rfl
  · intro i h1 h2 h3
    rw [hgone, List.map_append, List.mem_append, not_or] at h2
    have hi : e.sess ≠ i := by
      intro heq
      exact h2.2 (by simp [heq])
    rw [hlife, if_neg hi, List.append_nil]
    refine h.rest i ?_ h2.1 h3
    rw [hlive, List.map_append, List.mem_append, not_or]
    exact ⟨h1, by simpa using hi.symm⟩
  · rw [hexp]
    exact h.counted
  · rw [hinits, hins, hexp, hgone]
    intro hi
    have ht := h.tally hi
    rw [hlive, List.length_append] at ht
    rw [List.length_append, ht]
    simp only [List.length_singleton]
    omega
  · rw [hinits]
    exact h.keeps
  · rw [hinits]
    intro h0
    obtain ⟨-, h2, -⟩ := h.fresh h0
    rw [hlive] at h2
    exact absurd h2 (by simp)

/-- In the abstract store the flow is the oldest session, and it leaves. -/
lemma Shows.expireEntry (h : Shows g a pend s) {L : List Entry} {e : Entry} {born : List Entry}
    {pool : Pool} {L' : List (Session Packet)} {S : Session Packet} (haLive : a.live = L' ++ [S])
    (hL : L.map (fun e => s.record e.sess) = L'.map recordOf) (hS : s.record e.sess = recordOf S)
    (hexp : hasExpired (s.ips e.sess).lastpacketTimestamp s.lastPacketTimestamp = true) :
    Shows { g with live := L, born := born, flags := g.flags ++ [(e.anode, e.sess)] }
      { a with
        live := L', out := a.out ++ [S],
        notes := a.notes ++ [.tested (rules.last S) a.now, .left (rules.last S) a.now] }
      pend (expireEntry s e pool) := by
  have hlast : (s.ips e.sess).lastpacketTimestamp = rules.last S := congrArg FlowRecord.last hS
  have hstale : rules.stale (rules.last S) a.now := by
    show hasExpired _ _ = true
    rw [← hlast, h.now, hexp]
  -- the two events of the turn
  set t := s.log (.tested (s.ips e.sess).lastpacketTimestamp s.lastPacketTimestamp) with ht
  refine ⟨h.reach.tail (.expire haLive hstale), hL, ?_, h.now, ?_, ?_, ?_, ?_⟩
  · have hgone : Layout.gone { g with
        live := L, born := born, flags := g.flags ++ [(e.anode, e.sess)] }
        = g.gone ++ [(e.anode, e.sess)] := by
      simp [Layout.gone]
    have hexported : (Flow.expireEntry s e pool).exported = s.exported :=
      (exported_log _ _).trans
        ((List.append_nil _).trans ((exported_log _ _).trans (List.append_nil _)))
    rw [hexported, hgone, List.map_append, List.map_append, ← h.out, List.append_assoc]
    simp only [List.map_cons, List.map_nil, ← hS]
    rfl
  · have htimes : (Flow.expireEntry s e pool).times = s.times :=
      (times_log _ _).trans ((List.append_nil _).trans ((times_log _ _).trans (List.append_nil _)))
    rw [htimes]
    exact h.times
  · have hreached : (Flow.expireEntry s e pool).reached = s.reached :=
      (reached_log _ _).trans
        ((List.append_nil _).trans ((reached_log _ _).trans (List.append_nil _)))
    rw [hreached]
    exact h.arrivals
  · have hnotes : (Flow.expireEntry s e pool).notes
        = s.notes ++ [.tested (s.ips e.sess).lastpacketTimestamp s.lastPacketTimestamp]
          ++ [.left (s.record e.sess).last s.lastPacketTimestamp] :=
      (notes_log _ _).trans (congrArg (· ++ _) (notes_log _ _))
    rw [hnotes, hlast, hS, ← h.notes, ← h.now, List.append_assoc]
    rfl
  · have hinits : (Flow.expireEntry s e pool).inits = s.inits :=
      (inits_log _ _).trans (inits_log _ _)
    have herrors : (Flow.expireEntry s e pool).nodeErrors = s.nodeErrors :=
      (nodeErrors_log _ _).trans (nodeErrors_log _ _)
    rw [hinits, herrors]
    exact h.intact

/-- The last flow has not expired, and stays. -/
lemma Rep.keepEntry (h : Rep g a pend s) {L : List Entry} {e : Entry} (hlive : g.live = L ++ [e])
    (hexp : hasExpired (s.ips e.sess).lastpacketTimestamp s.lastPacketTimestamp = false) :
    ∃ a', Rep g a' pend
        (s.log (.tested (s.ips e.sess).lastpacketTimestamp s.lastPacketTimestamp))
      ∧ a'.live = a.live ∧ ∀ S, a'.live.getLast? = some S → ¬ Stale (rules.last S) a'.now := by
  obtain ⟨L', S, haLive, hL, hS⟩ := h.shows.live_concat hlive
  have hlast : (s.ips e.sess).lastpacketTimestamp = rules.last S := congrArg FlowRecord.last hS
  have hnow := h.shows.now
  refine ⟨{ a with notes := a.notes ++ [.tested (rules.last S) a.now] }, ?_, rfl, ?_⟩
  · refine h.log ⟨fun _ => rfl, rfl, rfl, rfl⟩ rfl rfl
      (h.shows.reach.tail (.test (S := S) (by simp [haLive]))) rfl rfl rfl rfl ?_ ?_ rfl
      fun _ => rfl
    · exact (List.append_nil _).trans h.shows.arrivals
    · rw [hlast, hnow]
      rfl
  · intro T hT hstale
    rw [haLive, List.getLast?_concat, Option.some.injEq] at hT
    rw [Stale, ← hT, ← hlast, hnow, hexp] at hstale
    exact absurd hstale (by simp)

/-- The last flow has expired, and leaves. -/
lemma Rep.expireEntry (h : Rep g a pend s) {L : List Entry} {e : Entry} (hlive : g.live = L ++ [e])
    (hexp : hasExpired (s.ips e.sess).lastpacketTimestamp s.lastPacketTimestamp = true) :
    ∃ pool a', Flow.cleanupStep e.anode s = (Flow.expireEntry s e pool, (L.map Entry.anode).getLast?)
      ∧ Rep { g with
          live := L
          born := g.born.filter fun x => x.bnode ≠ e.bnode
          flags := g.flags ++ [(e.anode, e.sess)] } a' pend (Flow.expireEntry s e pool)
      ∧ Still s (Flow.expireEntry s e pool) ∧ a'.live <+: a.live := by
  obtain ⟨L', S, haLive, hL, hS⟩ := h.shows.live_concat hlive
  have hlink := h.owns.linked e (by simp [hlive])
  have hlt : s.nodelPool.free.length < maxPoolNode := by
    have hlen := h.owns.node_length
    rw [hlive, List.length_append, List.length_singleton] at hlen
    omega
  obtain ⟨pool, hpool, hfree, hok⟩ := h.owns.nodePool.release hlt e.bnode
  have hnd : (L.map Entry.anode ++ [e.anode]).Nodup := by
    have hanodes := h.owns.anodes_nodup
    rwa [hlive, List.map_append] at hanodes
  have hact : s.activeFlowList = L.map Entry.anode ++ [e.anode] := by
    rw [h.owns.active, hlive, List.map_append]
    rfl
  refine ⟨pool, _, ?_, ⟨h.owns.expireEntry hlive hfree hok, h.lives.expireEntry h.owns hlive pool _,
    h.shows.expireEntry haLive hL hS hexp⟩, h.owns.expireEntry_still hlive hfree hok hexp, ?_⟩
  · rw [cleanupStep_expired hlink hexp hpool, hact, (concat_facts hnd).2]
  · rw [haLive]
    exact List.prefix_append L' [S]

/-- **One turn of the loop**, at the last flow of the active list: the flow has expired and leaves,
or it has not and the loop ends. -/
lemma Rep.cleanupStep (h : Rep g a pend s) {L : List Entry} {e : Entry}
    (hlive : g.live = L ++ [e]) :
    ∃ s' next g' a', cleanupStep e.anode s = (s', next) ∧ Still s s' ∧ Rep g' a' pend s'
      ∧ s'.clock = s.clock ∧ s'.naux = s.naux ∧ a'.live <+: a.live
      ∧ ((next = none ∧ ∀ S, a'.live.getLast? = some S → ¬ Stale (rules.last S) a'.now)
        ∨ (next = (L.map Entry.anode).getLast? ∧ g'.live = L)) := by
  have hlink := h.owns.linked e (by simp [hlive])
  cases hexp : hasExpired (s.ips e.sess).lastpacketTimestamp s.lastPacketTimestamp with
  | false =>
      obtain ⟨a', hrep, hlive', hlast⟩ := h.keepEntry hlive hexp
      exact ⟨_, _, g, a', cleanupStep_kept hlink hexp,
        .of_logged rfl rfl rfl (fun _ _ => rfl) rfl (Event.aside_of s rfl rfl), hrep,
        clock_log s rfl rfl, rfl, hlive' ▸ List.prefix_refl _, .inl ⟨rfl, hlast⟩⟩
  | true =>
      obtain ⟨pool, a', hstep, hrep, hstill, hprefix⟩ := h.expireEntry hlive hexp
      exact ⟨_, _, _, a', hstep, hstill, hrep, expireEntry_clock .., rfl, hprefix, .inr ⟨rfl, rfl⟩⟩

/-- The flows just expired go behind those expired before. -/
lemma Rep.spliceExpired (h : Rep g a pend s) :
    Rep { g with expired := g.expired ++ g.flags, flags := [] } a pend (spliceExpired s) := by
  obtain ⟨ho, hl, hs⟩ := h
  have hgone : Layout.gone { g with expired := g.expired ++ g.flags, flags := [] } = g.gone := by
    simp [Layout.gone]
  refine ⟨{ ho with nodes := ?_, sessions := ?_, expired := ?_, flags := rfl, left := ?_ },
    { hl with gone := ?_, rest := ?_, tally := ?_, fresh := ?_ }, { hs with out := ?_ }⟩
  · refine List.Perm.trans ?_ ho.nodes
    rw [List.perm_iff_count]
    intro x
    simp only [Layout.nodes, Flow.spliceExpired, List.map_append, List.map_nil, List.count_append,
      List.count_nil]
    omega
  · refine List.Perm.trans ?_ ho.sessions
    rw [List.perm_iff_count]
    intro x
    simp only [Layout.sessions, Flow.spliceExpired, List.map_append, List.map_nil,
      List.count_append, List.count_nil]
    omega
  · rw [List.map_append, ← ho.expired, ← ho.flags]
    rfl
  · rw [hgone]
    exact ho.left
  · rw [hgone]
    exact hl.gone
  · rw [hgone]
    exact hl.rest
  · rw [hgone]
    exact hl.tally
  · rw [hgone]
    exact hl.fresh
  · rw [hgone]
    exact hs.out

lemma spliceExpired_still (s : State) : Still s (Flow.spliceExpired s) := by
  refine .of_silent rfl rfl ?_ (fun _ _ => rfl) rfl
  simp only [State.leaving, Flow.spliceExpired, List.append_nil, List.append_assoc]

end Cleanup

/-! ## `cleanup_flows` -/

section Walk

variable {b c : Clock} {K : Session Packet → Prop} {s : State}

/-- Before `cleanup_flows`; `K` is what is known of the sessions in the table. -/
def Tidy (c : Clock) (K : Session Packet → Prop) : State → Prop :=
  At c [] fun _ a s => s.naux = none ∧ s.flagsExpiredFlowList = [] ∧ ∀ S ∈ a.live, K S

/-- In the first loop: `n` is the last node of the active list. -/
def Walking (c : Clock) (K : Session Packet → Prop) (fuel : ℕ) (n : Option NodeId) :
    State → Prop :=
  At c [] fun g a s => s.naux = none ∧ (∀ S ∈ a.live, K S)
    ∧ n = (g.live.map Entry.anode).getLast? ∧ g.live.length ≤ fuel

/-- After the first loop: the oldest flow has not expired. -/
def Walked (c : Clock) (K : Session Packet → Prop) : State → Prop :=
  At c [] fun _ a s => s.naux = none ∧ (∀ S ∈ a.live, K S)
    ∧ ∀ S, a.live.getLast? = some S → ¬ Stale (rules.last S) a.now

/-- After `cleanup_flows`. -/
def Swept (c : Clock) (K : Session Packet → Prop) : State → Prop :=
  At c [] fun _ a s => s.naux = none ∧ s.flagsExpiredFlowList = [] ∧ (∀ S ∈ a.live, K S)
    ∧ ∀ S, a.live.getLast? = some S → ¬ Stale (rules.last S) a.now

lemma stable_tidy : Stable ExportStep (Tidy c K) := by
  refine stable_at ?_
  rintro g a s g' s' hf ⟨h1, h2, h3⟩
  exact ⟨hf.naux.trans h1, hf.flags.trans h2, h3⟩

lemma stable_walking {fuel : ℕ} {n : Option NodeId} : Stable ExportStep (Walking c K fuel n) := by
  refine stable_at ?_
  rintro g a s g' s' hf ⟨h1, h2, h3, h4⟩
  rw [← hf.live] at h3 h4
  exact ⟨hf.naux.trans h1, h2, h3, h4⟩

lemma stable_walked : Stable ExportStep (Walked c K) := by
  refine stable_at ?_
  rintro g a s g' s' hf ⟨h1, h2, h3⟩
  exact ⟨hf.naux.trans h1, h2, h3⟩

lemma stable_swept : Stable ExportStep (Swept c K) := by
  refine stable_at ?_
  rintro g a s g' s' hf ⟨h1, h2, h3⟩
  exact ⟨hf.naux.trans h1, hf.flags.trans h2, h3⟩

/-- An empty table has nothing to expire. -/
lemma Walking.walked {fuel : ℕ} (h : Walking c K fuel none s) : Walked c K s := by
  obtain ⟨g, a, hrep, hclock, hnaux, hK, hn, hfuel⟩ := h
  have hlive : g.live = [] := by simpa [eq_comm] using hn
  have haLive : a.live = [] := by
    have hmap := hrep.shows.live
    rwa [hlive, List.map_nil, eq_comm, List.map_eq_nil_iff] at hmap
  refine ⟨g, a, hrep, hclock, hnaux, hK, ?_⟩
  rw [haLive]
  exact fun S hS => absurd hS (by simp)

/-- **The first loop** ends, and leaves no expired flow at the end of the active list. -/
lemma guarantees_cleanupLoop (hb : c.Below b) {fuel : ℕ} {n : Option NodeId}
    (h : Walking c K fuel n s) :
    Guarantees ExportStep (Sound b) Still (fun _ => Walked c K) (cleanupLoop fuel n) s := by
  induction fuel generalizing n s with
  | zero =>
      have hn : n = none := by
        obtain ⟨g, a, -, -, -, -, hn, hfuel⟩ := h
        rw [List.length_eq_zero_iff.mp (Nat.le_zero.mp hfuel)] at hn
        exact hn
      subst hn
      exact .done stable_walked (At.sound hb) h.walked
  | succ fuel ih =>
      cases n with
      | none => exact .done stable_walked (At.sound hb) h.walked
      | some n =>
          refine .atomic_bind stable_walking (At.sound hb) ?_ h
          rintro s ⟨g, a, hrep, hclock, hnaux, hK, hn, hfuel⟩
          obtain ⟨L, e, hlive⟩ : ∃ L e, g.live = L ++ [e] := by
            rcases List.eq_nil_or_concat g.live with hnil | ⟨L, e, hcons⟩
            · rw [hnil] at hn
              exact absurd hn (by simp)
            · exact ⟨L, e, hcons.trans List.concat_eq_append⟩
          have hnode : n = e.anode := by
            rw [hlive, List.map_append] at hn
            simpa using hn
          subst hnode
          obtain ⟨s', next, g', a', hstep, hstill, hrep', hclock', hnaux', hpre, hnext⟩ :=
            hrep.cleanupStep hlive
          have hK' : ∀ S ∈ a'.live, K S := fun S hS => hK S (hpre.subset hS)
          rw [hstep]
          refine ⟨hstill, ?_⟩
          rcases hnext with ⟨rfl, hlast⟩ | ⟨rfl, hlive'⟩
          · have hwalked : Walked c K s' :=
              ⟨g', a', hrep', hclock'.trans hclock, hnaux'.trans hnaux, hK', hlast⟩
            cases fuel with
            | zero => exact .done stable_walked (At.sound hb) hwalked
            | succ _ => exact .done stable_walked (At.sound hb) hwalked
          · refine ih ⟨g', a', hrep', hclock'.trans hclock, hnaux'.trans hnaux, hK', ?_, ?_⟩
            · rw [hlive']
            · rw [hlive, List.length_append, List.length_singleton] at hfuel
              rw [hlive']
              omega

/-- **`cleanup_flows`.**  The loop over the flows expired by flag has nothing to do: that list is
empty whenever `cleanup_flows` starts. -/
lemma guarantees_cleanupFlows (hb : c.Below b) (h : Tidy c K s) :
    Guarantees ExportStep (Sound b) Still (fun _ => Swept c K) cleanupFlows s := by
  refine .atomic_bind stable_tidy (At.sound hb) ?_ h
  rintro s ⟨g, a, hrep, hclock, hnaux, hflags, hK⟩
  refine ⟨.of_silent rfl rfl rfl (fun _ _ => rfl) rfl, ?_⟩
  simp only [hflags]
  refine .bind (guarantees_cleanupLoop (K := K) hb ?_) ?_
  · refine ⟨g, a, hrep, hclock, hnaux, hK, ?_, ?_⟩
    · rw [hrep.owns.active]
    · rw [hrep.owns.active, List.length_map]
  · intro _ s hs
    refine .sec stable_walked (At.sound hb) ?_ hs
    rintro s ⟨g, a, hrep, hclock, hnaux, hK, hlast⟩
    exact ⟨spliceExpired_still s, .done stable_swept (At.sound hb)
      ⟨_, a, hrep.spliceExpired, hclock, hnaux, rfl, hK, hlast⟩⟩

end Walk

end Flow
