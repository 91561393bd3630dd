import XdpFlows.Flow.Cleanup

/-!
# Finding and updating flows

`insertFlow` looks the tuple of a packet up in its bucket.  A bucket holds flows of several keys, the
latest insertion first; the active list holds all flows, the latest use first.  For one key both
orders agree, so the search in the bucket finds the most recently used flow of the key
(`Owns.listSearch_eq`).  If that flow has not expired, the packet is counted in it and the flow moves
to the front of the active list: a `merge` of the abstract store (`Rep.growEntry`).
-/

namespace Flow

open SessionWindow Sections

/-! ## Records -/

lemma recordOf_add (S : Session Packet) (p : Packet) :
    recordOf (S.add p) = (recordOf S).grow p := by
  have hbytes : UInt64.ofNat p.len.toNat = p.len.toUInt64 := UInt64.ofNat_uInt32ToNat ..
  have hpack : UInt32.ofNat (S.packets.length + 1) = UInt32.ofNat S.packets.length + 1 :=
    UInt32.ofNat_add ..
  simp only [recordOf, FlowRecord.grow, Session.packets_add, Session.latest_add, Session.first_add,
    List.length_append, List.length_singleton, List.map_append, List.map_cons, List.map_nil,
    List.sum_append, List.sum_singleton, UInt64.ofNat_add, hpack, hbytes]

/-- The record of a flow with one accepted packet. -/
lemma recordOf_start {p : Packet} (h : (parse p .zero).verdict = .accepted) :
    recordOf (.start p) = ⟨p.flow, p.ts, p.ts⟩ := by
  obtain ⟨-, hnpack, hnbytes, -, -⟩ := counted_parse p
  have hbytes : UInt64.ofNat p.len.toNat = p.flow.nbytes := by
    rw [Packet.flow, hnbytes h]
    exact UInt64.ofNat_uInt32ToNat ..
  have hpack : UInt32.ofNat 1 = p.flow.npack := (hnpack h).symm
  simp only [recordOf, Session.packets_start, Session.latest_start, Session.first_start,
    List.length_singleton, List.map_cons, List.map_nil, List.sum_singleton, hpack, hbytes]

/-! ## The search in a bucket -/

section Search

variable {g : Layout} {a : Flows Packet UInt64} {pend : List Packet} {s : State}

/-- In the bucket of its key a flow matches session `i` if their keys agree. -/
lemma matches_eq {e : Entry} (h : e.Linked s.nodeData s.ips) (i : SessionId) :
    s.matches i e.bnode = decide (s.key e.sess = s.key i) := by
  rw [State.matches, sessionAt_eq h.bucket]
  simp only [compareTupleFlow_eq_zero]
  rfl

/-- The nodes of a bucket that match session `i`, in the order of the active list. -/
lemma Owns.filter_bucket (h : Owns g s) (i : SessionId) :
    (s.flowTable (s.key i).index).filter (s.matches i)
      = (g.live.filter fun e => s.key e.sess = s.key i).map Entry.bnode := by
  have hmatch : ∀ e ∈ g.born, s.matches i e.bnode = decide (s.key e.sess = s.key i) :=
    fun e he => matches_eq (h.linked e (h.bornPerm.mem_iff.mp he)) i
  rw [h.table, List.filter_map, List.filter_filter, ← h.bornOrder]
  congr 1
  refine List.filter_congr fun e he => ?_
  simp only [Function.comp_apply, hmatch e he, Bool.and_eq_decide, decide_eq_decide]
  simp only [decide_eq_true_eq, and_iff_left_iff_imp]
  intro hkey
  rw [hkey]

/-- **The search finds the most recently used flow of the key.** -/
lemma Owns.listSearch_eq (h : Owns g s) (i : SessionId) :
    listSearch s (s.flowTable (s.key i).index) i
      = (g.live.find? fun e => s.key e.sess = s.key i).map Entry.bnode := by
  rw [listSearch, ← List.head?_filter, h.filter_bucket i, List.head?_map, List.head?_filter]

/-- Keys of flows are keys of sessions. -/
lemma key_of_record {i : SessionId} {S : Session Packet} (h : s.record i = recordOf S) :
    s.key i = rules.key S.first :=
  congrArg (fun r : FlowRecord => r.flow.key) h

/-- The most recently used flow of key `k`, in memory and in the abstract store. -/
lemma Shows.split (h : Shows g a pend s) {A B : List Entry} {e : Entry}
    (hlive : g.live = A ++ e :: B) {k : Key} (hA : ∀ x ∈ A, s.key x.sess ≠ k) :
    ∃ A' S B', a.live = A' ++ S :: B' ∧ A.map (fun e => s.record e.sess) = A'.map recordOf
      ∧ s.record e.sess = recordOf S ∧ B.map (fun e => s.record e.sess) = B'.map recordOf
      ∧ ∀ T ∈ A', rules.key T.first ≠ k := by
  have hmap := h.live
  rw [hlive, List.map_append, List.map_cons, eq_comm, List.map_eq_append_iff] at hmap
  obtain ⟨A', M, heq, hA', hM⟩ := hmap
  obtain ⟨S, B', rfl, hS, hB⟩ := List.map_eq_cons_iff.mp hM
  refine ⟨A', S, B', heq, hA'.symm, hS.symm, hB.symm, fun T hT hkey => ?_⟩
  have hrec : recordOf T ∈ A.map fun e => s.record e.sess := by
    rw [← hA']
    exact List.mem_map_of_mem hT
  obtain ⟨x, hx, hxT⟩ := List.mem_map.mp hrec
  exact hA x hx ((key_of_record hxT).trans hkey)

/-- The times of the last packets of the flows of a key. -/
lemma Rep.sameKey_eq (h : Rep g a pend s) (i : SessionId) :
    s.sameKey i (s.flowTable (s.key i).index)
      = (rules.ofKey (s.key i) a.live).map rules.last := by
  have hlast : ∀ e ∈ g.live.filter (fun e => s.key e.sess = s.key i),
      (s.sessionAt e.bnode).map (fun j => (s.ips j).lastpacketTimestamp)
        = some (s.record e.sess).last := by
    intro e he
    rw [sessionAt_eq (h.owns.linked e (List.mem_filter.mp he).1).bucket]
    rfl
  have hrecords : (g.live.filter fun e => s.key e.sess = s.key i).map (fun e => s.record e.sess)
      = (rules.ofKey (s.key i) a.live).map recordOf := by
    have hfilter := congrArg
      (List.filter fun r : FlowRecord => r.flow.key = s.key i) h.shows.live
    rw [List.filter_map, List.filter_map] at hfilter
    exact hfilter
  rw [State.sameKey, h.owns.filter_bucket i, List.filterMap_map]
  calc (g.live.filter fun e => s.key e.sess = s.key i).filterMap _
      = (g.live.filter fun e => s.key e.sess = s.key i).map fun e => (s.record e.sess).last := by
        exact (List.filterMap_congr hlast).trans (congrFun (List.filterMap_eq_map ..) _)
    _ = ((rules.ofKey (s.key i) a.live).map recordOf).map FlowRecord.last := by
        rw [← hrecords, List.map_map]
        rfl
    _ = (rules.ofKey (s.key i) a.live).map rules.last := by
        rw [List.map_map]
        rfl

end Search

/-! ## Another packet of a flow -/

section Update

variable {g : Layout} {a : Flows Packet UInt64} {s : State} {A B : List Entry} {e : Entry}

/-- What `updateFlowTable` leaves behind. -/
def growEntry (s : State) (e : Entry) (newFlow : IPFlow) : State :=
  { s with
    ips := Function.update s.ips e.sess { s.ips e.sess with
      incoming := { (s.ips e.sess).incoming with
        npack := (s.ips e.sess).incoming.npack + 1
        nbytes := (s.ips e.sess).incoming.nbytes + newFlow.nbytes }
      lastpacketTimestamp := s.lastPacketTimestamp }
    activeFlowList := e.anode :: s.activeFlowList.erase e.anode }

lemma updateFlowTable_eq (h : e.Linked s.nodeData s.ips) (newFlow : IPFlow) :
    updateFlowTable s e.sess newFlow = growEntry s e newFlow := by
  unfold updateFlowTable growEntry
  simp only [h.currentFlow, h.activeNode, State.setSession, Function.update_self,
    Function.update_idem]

lemma growEntry_of_ne {j : SessionId} (newFlow : IPFlow) (h : j ≠ e.sess) :
    (growEntry s e newFlow).ips j = s.ips j :=
  Function.update_of_ne h ..

lemma growEntry_record {p : Packet} {newFlow : IPFlow} (hbytes : newFlow.nbytes = p.len.toUInt64)
    (hts : p.ts = s.lastPacketTimestamp) :
    (growEntry s e newFlow).record e.sess = (s.record e.sess).grow p := by
  simp only [State.record, growEntry, Function.update_self, IPSession.record, FlowRecord.grow,
    hbytes, hts]

/-- The counters are no part of the key. -/
lemma growEntry_key (newFlow : IPFlow) (j : SessionId) :
    (growEntry s e newFlow).key j = s.key j := by
  by_cases hj : j = e.sess
  · rw [hj, State.key, growEntry]
    simp only [Function.update_self]
    rfl
  · rw [State.key, growEntry_of_ne newFlow hj]
    rfl

/-- The flow moves to the front of the active list and stays where it is in its bucket. -/
lemma Owns.growEntry (h : Owns g s) (hlive : g.live = A ++ e :: B)
    (hA : ∀ x ∈ A, s.key x.sess ≠ s.key e.sess) (newFlow : IPFlow) :
    Owns { g with live := e :: (A ++ B) } (growEntry s e newFlow) := by
  have hmem : e ∈ g.live := by simp [hlive]
  have hperm : (e :: (A ++ B)).Perm g.live := by
    rw [hlive]
    exact List.perm_middle.symm
  have hkey := growEntry_key (s := s) (e := e) newFlow
  have hlink : ∀ j, ((Flow.growEntry s e newFlow).ips j).activeNode = (s.ips j).activeNode
      ∧ ((Flow.growEntry s e newFlow).ips j).currentFlow = (s.ips j).currentFlow := by
    intro j
    by_cases hj : j = e.sess
    · rw [hj, Flow.growEntry]
      simp only [Function.update_self, and_self]
    · rw [growEntry_of_ne newFlow hj]
      exact ⟨rfl, rfl⟩
  refine { h with
    nodes := ?_, sessions := ?_, active := ?_, linked := fun x hx => ?_, bornPerm := ?_,
    bornOrder := fun k => ?_, table := fun index => ?_, cleared := fun i hi => ?_ }
  · refine List.Perm.trans ?_ h.nodes
    rw [List.perm_iff_count]
    intro x
    have ha := (hperm.map Entry.anode).count_eq x
    have hb := (hperm.map Entry.bnode).count_eq x
    simp only [Layout.nodes, Flow.growEntry, List.count_append, ha, hb]
  · refine List.Perm.trans ?_ h.sessions
    rw [List.perm_iff_count]
    intro x
    have hs := (hperm.map Entry.sess).count_eq x
    simp only [Layout.sessions, Flow.growEntry, List.count_append, hs]
  · have hnd := h.anodes_nodup
    rw [hlive, List.map_append, List.map_cons] at hnd
    have hnot : e.anode ∉ A.map Entry.anode := fun hmem =>
      (List.nodup_append.mp hnd).2.2 _ hmem _ (List.mem_cons_self ..) rfl
    show e.anode :: s.activeFlowList.erase e.anode = (e :: (A ++ B)).map Entry.anode
    rw [h.active, hlive, List.map_append, List.map_cons, List.erase_append_right _ hnot,
      List.erase_cons_head, List.map_cons, List.map_append]
  · obtain ⟨h1, h2, h3, h4⟩ := h.linked x (hperm.mem_iff.mp hx)
    exact ⟨h1, h2, (hlink x.sess).1.trans h3, (hlink x.sess).2.trans h4⟩
  · exact h.bornPerm.trans hperm.symm
  · -- no flow of the key stands before `e`
    simp only [hkey]
    rw [h.bornOrder k, hlive, List.filter_append, List.filter_cons, List.filter_cons,
      List.filter_append]
    by_cases hk : s.key e.sess = k
    · have hnil : A.filter (fun x => s.key x.sess = k) = [] := by
        refine List.filter_eq_nil_iff.mpr fun x hx => ?_
        simpa [← hk] using hA x hx
      rw [hnil]
      simp [hk]
    · simp [hk]
  · simp only [hkey]
    exact h.table index
  · have hne : i ≠ e.sess := by
      intro heq
      have hone := h.session_count i
      have hfree := List.count_pos_iff.mpr hi
      have hpos := count_map_pos (f := Entry.sess) hmem
      rw [heq] at hfree hone
      have hsame : (Flow.growEntry s e newFlow).ipSessionPool.free = s.ipSessionPool.free := rfl
      rw [hsame] at hfree
      omega
    rw [growEntry_of_ne newFlow hne]
    exact h.cleared i hi

lemma Lives.growEntry (h : Lives g s) (ho : Owns g s) (hlive : g.live = A ++ e :: B)
    (newFlow : IPFlow) :
    Lives { g with live := e :: (A ++ B) } (growEntry s e newFlow) := by
  have hmem : e ∈ g.live := by simp [hlive]
  have hperm : (e :: (A ++ B)).Perm g.live := by
    rw [hlive]
    exact List.perm_middle.symm
  refine { h with
    live := fun x hx => h.live x (hperm.mem_iff.mp hx), gone := fun w hw => ?_,
    rest := fun i h1 h2 h3 => ?_, tally := fun hi => ?_, fresh := fun h0 => ?_ }
  · have hne := ho.gone_ne hmem w hw
    obtain ⟨l, hcomplete, hlife⟩ := h.gone w hw
    refine ⟨l, hcomplete, ?_⟩
    rw [State.record, growEntry_of_ne newFlow hne]
    exact hlife
  · refine h.rest i ?_ h2 h3
    rw [← (hperm.map Entry.sess).mem_iff]
    exact h1
  · show s.insertions = s.exported.length + (e :: (A ++ B)).length + g.gone.length
    rw [hperm.length_eq]
    exact h.tally hi
  · obtain ⟨-, h2, -⟩ := h.fresh h0
    rw [h2] at hmem
    exact absurd hmem List.not_mem_nil

/-- In the abstract store the packet joins its session. -/
lemma Shows.growEntry {p : Packet} (h : Shows g a [p] s) (ho : Owns g s)
    (hlive : g.live = A ++ e :: B) (hA : ∀ x ∈ A, s.key x.sess ≠ p.key)
    (hkey : s.key e.sess = p.key) {newFlow : IPFlow} (hbytes : newFlow.nbytes = p.len.toUInt64)
    (hts : p.ts = s.lastPacketTimestamp) (hnow : s.lastPacketTimestamp ∈ s.times)
    (hexp : hasExpired (s.ips e.sess).lastpacketTimestamp s.lastPacketTimestamp = false) :
    ∃ a', Shows { g with live := e :: (A ++ B) } a' []
      (((growEntry s e newFlow).log
        (.tested (s.ips e.sess).lastpacketTimestamp s.lastPacketTimestamp)).log
          (.merged e.sess)) := by
  have hmem : e ∈ g.live := by simp [hlive]
  obtain ⟨A', S, B', haLive, hA', hS, hB', hbefore⟩ := h.split hlive hA
  have hlast : (s.ips e.sess).lastpacketTimestamp = rules.last S := congrArg FlowRecord.last hS
  have hfresh : ¬ rules.stale (rules.last S) a.now := by
    show ¬ hasExpired _ _ = true
    rw [← hlast, h.now, hexp]
    simp
  have hstep : rules.Step a { a with
      live := S.add p :: (A' ++ B'), arrivals := a.arrivals ++ [p],
      notes := a.notes ++ [.tested (rules.last S) a.now] } :=
    .merge (h.now ▸ h.times ▸ hnow) (h.now ▸ hts) haLive hbefore
      ((key_of_record hS).symm.trans hkey) hfresh
  -- the records of all other flows stay
  have hother : ∀ x ∈ A ++ B, (Flow.growEntry s e newFlow).record x.sess = s.record x.sess := by
    intro x hx
    have hne : x.sess ≠ e.sess := by
      have hnd := ho.sessions_nodup
      rw [hlive, (List.perm_middle.map Entry.sess).nodup_iff, List.map_cons] at hnd
      intro heq
      exact (List.nodup_cons.mp hnd).1 (heq ▸ List.mem_map_of_mem hx)
    rw [State.record, growEntry_of_ne newFlow hne]
    rfl
  refine ⟨_, h.reach.tail hstep, ?_, ?_, h.now, ?_, ?_, ?_, ?_⟩
  · show (Flow.growEntry s e newFlow).record e.sess
      :: (A ++ B).map (fun x => (Flow.growEntry s e newFlow).record x.sess) = _
    rw [List.map_congr_left hother, growEntry_record hbytes hts, hS, ← recordOf_add,
      List.map_append, hA', hB', List.map_cons, List.map_append]
  · have hexported : (((Flow.growEntry s e newFlow).log
        (.tested (s.ips e.sess).lastpacketTimestamp s.lastPacketTimestamp)).log
          (.merged e.sess)).exported = s.exported :=
      (exported_log _ _).trans
        ((List.append_nil _).trans ((exported_log _ _).trans (List.append_nil _)))
    rw [hexported, ← h.out]
    refine congrArg (s.exported ++ ·) (List.map_congr_left fun w hw => ?_)
    show ((Flow.growEntry s e newFlow).ips w.2).record = _
    rw [growEntry_of_ne newFlow (ho.gone_ne hmem w hw)]
    rfl
  · rw [times_log, times_log]
    exact h.times.trans ((List.append_nil _).trans (List.append_nil _)).symm
  · rw [reached_log, reached_log]
    exact (List.append_nil _).trans ((List.append_nil _).trans
      (h.arrivals.trans (List.append_nil _).symm))
  · rw [notes_log, notes_log, ← hlast, h.now]
    exact (congrArg (· ++ _) h.notes).trans (List.append_nil _).symm
  · rw [inits_log, inits_log, nodeErrors_log, nodeErrors_log]
    exact h.intact

/-- **Another packet of a flow.** -/
lemma Rep.growEntry {p : Packet} (h : Rep g a [p] s) (hlive : g.live = A ++ e :: B)
    (hA : ∀ x ∈ A, s.key x.sess ≠ p.key) (hkey : s.key e.sess = p.key) {newFlow : IPFlow}
    (hbytes : newFlow.nbytes = p.len.toUInt64) (hts : p.ts = s.lastPacketTimestamp)
    (hnow : s.lastPacketTimestamp ∈ s.times)
    (hexp : hasExpired (s.ips e.sess).lastpacketTimestamp s.lastPacketTimestamp = false) :
    ∃ g' a', Rep g' a' []
      (((growEntry s e newFlow).log
        (.tested (s.ips e.sess).lastpacketTimestamp s.lastPacketTimestamp)).log
          (.merged e.sess)) := by
  have hquiet : ∀ {e : Event}, e.reached? = none → e.Quiet →
      ∀ {g : Layout} {s : State}, Lives g s → Lives g (s.log e) :=
    fun hr he _ _ hl => hl.log he fun _ => hr
  obtain ⟨a', hshows⟩ := h.shows.growEntry h.owns hlive hA hkey hbytes hts hnow hexp
  have ho := h.owns.growEntry hlive (fun x hx => hkey ▸ hA x hx) newFlow
  refine ⟨_, a', { ho with nodes := ho.nodes }, ?_, hshows⟩
  refine hquiet rfl ⟨fun _ => rfl, rfl, rfl, rfl⟩ ?_
  exact hquiet rfl ⟨fun _ => rfl, rfl, rfl, rfl⟩ (h.lives.growEntry h.owns hlive newFlow)

/-- The packet is put into the flow. -/
lemma Rep.growEntry_merges {p : Packet} (h : Rep g a [p] s) (hlive : g.live = A ++ e :: B)
    (hkey : s.key e.sess = p.key) {newFlow : IPFlow} (hbytes : newFlow.nbytes = p.len.toUInt64)
    (hts : p.ts = s.lastPacketTimestamp) (hnow : s.times.getLast? = some s.lastPacketTimestamp)
    (hexp : hasExpired (s.ips e.sess).lastpacketTimestamp s.lastPacketTimestamp = false) :
    Merges p e.sess s
      (((Flow.growEntry s e newFlow).log
        (.tested (s.ips e.sess).lastpacketTimestamp s.lastPacketTimestamp)).log
          (.merged e.sess)) := by
  have hmem : e ∈ g.live := by simp [hlive]
  have hreached : s.reached.getLast? = some p := by
    rw [h.shows.arrivals, List.getLast?_concat]
  refine ⟨⟨hreached, hts ▸ hnow⟩, h.owns.inTable_iff.mpr ⟨e, hmem, rfl⟩, hkey,
    fun i => inTable_congr rfl rfl, fun i hi => ?_, growEntry_record hbytes hts, ?_,
    fun i hi => congrArg IPSession.record (growEntry_of_ne newFlow hi), ?_⟩
  · have hi : s.Leaving i := (leaving_congr rfl rfl).mp hi
    obtain ⟨w, hw, rfl⟩ := h.owns.leaving_iff.mp hi
    exact ⟨hi, h.owns.gone_ne hmem w hw⟩
  · rw [hts]
    exact fun hstale => absurd (hexp.symm.trans hstale) (by simp)
  · rw [hts]
    exact List.append_assoc ..

end Update

/-! ## The lookup -/

section Lookup

variable {c : Clock} {p : Packet} {i : SessionId} {s : State}

/-- Between two packets. -/
def Idle (c : Clock) : State → Prop :=
  Tidy c fun _ => True

/-- At the call of `insertFlow`. -/
def Called (c : Clock) (p : Packet) (i : SessionId) : State → Prop :=
  At c [p] fun _ _ s => s.naux = none ∧ s.flagsExpiredFlowList = [] ∧ s.auxSession = some i
    ∧ (s.ips i).incoming = p.flow

/-- The flow the lookup finds, if any, was tested and has expired. -/
def Unfound (p : Packet) (a : Flows Packet UInt64) : Prop :=
  ∀ S, a.live.find? (fun S => rules.key S.first = rules.key p) = some S →
    rules.stale (rules.last S) a.now ∧ Note.tested (rules.last S) a.now ∈ a.notes

/-- At the call of `insertFlowTable`. -/
def Missed (c : Clock) (p : Packet) (i : SessionId) : State → Prop :=
  At c [p] fun _ a s => (s.naux = none ∧ s.flagsExpiredFlowList = [] ∧ s.auxSession = some i
    ∧ (s.ips i).incoming = p.flow) ∧ Unfound p a

lemma stable_idle : Stable ExportStep (Idle c) :=
  stable_tidy

lemma stable_called : Stable ExportStep (Called c p i) := by
  refine stable_at ?_
  rintro g a s g' s' hf ⟨h1, h2, h3, h4⟩
  exact ⟨hf.naux.trans h1, hf.flags.trans h2, hf.aux.trans h3, (hf.auxData i h3).symm ▸ h4⟩

lemma stable_missed : Stable ExportStep (Missed c p i) := by
  refine stable_at ?_
  rintro g a s g' s' hf ⟨⟨h1, h2, h3, h4⟩, h5⟩
  exact ⟨⟨hf.naux.trans h1, hf.flags.trans h2, hf.aux.trans h3, (hf.auxData i h3).symm ▸ h4⟩, h5⟩

lemma insertFlowLookup_none {k : ℕ} (hindex : getIndex (s.ips i).incoming = k)
    (hsearch : listSearch s (s.flowTable k) i = none) :
    insertFlowLookup i s = (s, .insert k) := by
  unfold insertFlowLookup
  simp only [hindex, hsearch]

lemma insertFlowLookup_expired {k : ℕ} {n : NodeId} {j : SessionId}
    (hindex : getIndex (s.ips i).incoming = k)
    (hsearch : listSearch s (s.flowTable k) i = some n) (hat : s.sessionAt n = some j)
    (hexp : hasExpired (s.ips j).lastpacketTimestamp s.lastPacketTimestamp = true) :
    insertFlowLookup i s
      = (s.log (.tested (s.ips j).lastpacketTimestamp s.lastPacketTimestamp), .insert k) := by
  unfold insertFlowLookup
  simp only [hindex, hsearch, hat, State.log, hexp, if_true]

lemma insertFlowLookup_fresh {k : ℕ} {e : Entry} (hindex : getIndex (s.ips i).incoming = k)
    (hsearch : listSearch s (s.flowTable k) i = some e.bnode)
    (hlink : e.Linked s.nodeData s.ips)
    (hexp : hasExpired (s.ips e.sess).lastpacketTimestamp s.lastPacketTimestamp = false) :
    insertFlowLookup i s
      = (((growEntry s e (s.ips i).incoming).log
        (.tested (s.ips e.sess).lastpacketTimestamp s.lastPacketTimestamp)).log
          (.merged e.sess), .done) := by
  have hgrow := updateFlowTable_eq
    (s := s.log (.tested (s.ips e.sess).lastpacketTimestamp s.lastPacketTimestamp)) hlink
    (s.ips i).incoming
  unfold insertFlowLookup
  simp only [hindex, hsearch, sessionAt_eq hlink.bucket, hgrow]
  have hnow : (s.log (.tested (s.ips e.sess).lastpacketTimestamp
      s.lastPacketTimestamp)).lastPacketTimestamp = s.lastPacketTimestamp := rfl
  rw [hnow, hexp]
  rfl

/-- **The lookup of `insertFlow`**: the packet is counted, or a new flow has to be inserted. -/
lemma Called.lookup (h : Called c p i s) (hacc : (parse p .zero).verdict = .accepted)
    (hts : p.ts = c.now) (hnow : c.times.getLast? = some c.now) :
    ((insertFlowLookup i s).2 = .insert p.key.index ∧ Still s (insertFlowLookup i s).1
        ∧ Missed c p i (insertFlowLookup i s).1)
      ∨ ((insertFlowLookup i s).2 = .done ∧ (∃ j, Merges p j s (insertFlowLookup i s).1)
        ∧ Idle c (insertFlowLookup i s).1) := by
  obtain ⟨g, a, hrep, hclock, hnaux, hflags, haux, hin⟩ := h
  have hkey : s.key i = p.key := congrArg IPFlow.key hin
  have hnow' : s.lastPacketTimestamp = c.now := congrArg Clock.now hclock
  have htimes : s.times = c.times := congrArg Clock.times hclock
  have hindex : getIndex (s.ips i).incoming = p.key.index := by rw [getIndex_eq, hin, Packet.key]
  have hsearch := hrep.owns.listSearch_eq i
  rw [hkey] at hsearch
  cases hfind : g.live.find? fun e => s.key e.sess = p.key with
  | none =>
      rw [hfind, Option.map_none] at hsearch
      rw [insertFlowLookup_none hindex hsearch]
      refine Or.inl ⟨rfl, .of_silent rfl rfl rfl (fun _ _ => rfl) rfl, g, a, hrep, hclock,
        ⟨hnaux, hflags, haux, hin⟩, ?_⟩
      intro S hS
      obtain ⟨hkS, A, B, hlive, -⟩ := List.find?_eq_some_iff_append.mp hS
      have hmem : recordOf S ∈ g.live.map fun e => s.record e.sess := by
        rw [hrep.shows.live, hlive]
        simp
      obtain ⟨e, he, heS⟩ := List.mem_map.mp hmem
      have hnone := List.find?_eq_none.mp hfind e he
      rw [key_of_record heS] at hnone
      exact absurd hkS hnone
  | some e =>
      rw [hfind, Option.map_some] at hsearch
      obtain ⟨hke, A, B, hlive, hA⟩ := List.find?_eq_some_iff_append.mp hfind
      rw [decide_eq_true_eq] at hke
      have hmem : e ∈ g.live := by simp [hlive]
      have hA' : ∀ x ∈ A, s.key x.sess ≠ p.key := by
        intro x hx
        simpa using hA x hx
      have hlink := hrep.owns.linked e hmem
      cases hexp : hasExpired (s.ips e.sess).lastpacketTimestamp s.lastPacketTimestamp with
      | true =>
          rw [insertFlowLookup_expired hindex hsearch (sessionAt_eq hlink.bucket) hexp]
          obtain ⟨A', S, B', haLive, -, hS, -, hbefore⟩ := hrep.shows.split hlive hA'
          have hlast : (s.ips e.sess).lastpacketTimestamp = rules.last S :=
            congrArg FlowRecord.last hS
          refine Or.inl ⟨rfl,
            .of_logged rfl rfl rfl (fun _ _ => rfl) rfl (Event.aside_of s rfl rfl),
            g, { a with notes := a.notes ++ [.tested (rules.last S) a.now] },
            ?_, (clock_log s rfl rfl).trans hclock, ⟨hnaux, hflags, haux, hin⟩, ?_⟩
          · refine hrep.log ⟨fun _ => rfl, rfl, rfl, rfl⟩ rfl rfl
              (hrep.shows.reach.tail (.test (S := S) (by simp [haLive]))) rfl rfl rfl rfl ?_ ?_ rfl
              fun _ => rfl
            · exact (List.append_nil _).trans hrep.shows.arrivals
            · rw [hlast, hrep.shows.now]
              rfl
          · intro T hT
            have hfindS : a.live.find? (fun S => rules.key S.first = rules.key p) = some S := by
              refine List.find?_eq_some_iff_append.mpr ⟨?_, A', B', haLive, fun x hx => ?_⟩
              · rw [decide_eq_true_eq, ← key_of_record hS]
                exact hke
              · rw [Bool.not_eq_true', decide_eq_false_iff_not]
                exact hbefore x hx
            obtain rfl : S = T := Option.some.inj (hfindS.symm.trans hT)
            refine ⟨?_, List.mem_append_right _ (List.mem_singleton.mpr rfl)⟩
            show hasExpired _ _ = true
            rw [← hlast, hrep.shows.now]
            exact hexp
      | false =>
          have hbytes : (s.ips i).incoming.nbytes = p.len.toUInt64 := by
            rw [hin]
            exact (counted_parse p).nbytes hacc
          rw [insertFlowLookup_fresh hindex hsearch hlink hexp]
          have hlast : s.times.getLast? = some s.lastPacketTimestamp := by rw [hnow', htimes, hnow]
          obtain ⟨g', a', hrep'⟩ := hrep.growEntry hlive hA' hke hbytes (hts.trans hnow'.symm)
            (List.mem_of_getLast? hlast) hexp
          have hmerges := hrep.growEntry_merges hlive hke hbytes (hts.trans hnow'.symm) hlast hexp
          refine Or.inr ⟨rfl, ⟨e.sess, hmerges⟩, g', a', hrep', ?_, hnaux, hflags, fun _ _ => trivial⟩
          exact (clock_log _ rfl rfl).trans ((clock_log _ rfl rfl).trans hclock)

end Lookup

end Flow
