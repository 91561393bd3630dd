import XdpFlows.Flow.Export

/-!
# What a step does to the flows

A section of the process thread or a step of the export thread does one of three things to the flows
in memory.  It puts a packet into a flow of the table (`Merges`), it puts a new flow with one packet
into the table (`Opens`), or it does neither (`Still`): flows may move from the table to those that
leave, and disappear from there, but none appears and no record changes.

The packet is the one that reached `insertFlow` last, and its time is what the clock was set to last.

The step lemmas are beside the functions they are about.  Here are the three kinds, and the step of
the export thread.
-/

namespace Flow

open SessionWindow Sections

/-! ## Where the flows are -/

/-- All nodes in the hash table. -/
def State.buckets (s : State) : List NodeId :=
  (List.range maxFlowTableSize).flatMap s.flowTable

/-- The flows on their way out, in the hand of the export thread or in one of the two lists. -/
def State.leaving (s : State) : List NodeId :=
  s.exporter.poppedNode ++ s.expiredFlowList ++ s.flagsExpiredFlowList

/-- Session `i` is in `flow_table`. -/
def State.InTable (s : State) (i : SessionId) : Prop :=
  ∃ n ∈ s.buckets, s.nodeData n = .session i

/-- Session `i` is in an expired list or being exported. -/
def State.Leaving (s : State) (i : SessionId) : Prop :=
  ∃ n ∈ s.leaving, s.nodeData n = .session i

section Places

variable {g : Layout} {s : State} {i : SessionId}

lemma State.inTable_of_mem {n : NodeId} {index : ℕ} (hindex : index < maxFlowTableSize)
    (hn : n ∈ s.flowTable index) (hdata : s.nodeData n = .session i) : s.InTable i :=
  ⟨n, List.mem_flatMap.mpr ⟨index, List.mem_range.mpr hindex, hn⟩, hdata⟩

lemma Owns.buckets_perm (h : Owns g s) : s.buckets.Perm (g.live.map Entry.bnode) := by
  have hborn : s.buckets = ((List.range maxFlowTableSize).flatMap fun index =>
      g.born.filter fun e => (s.key e.sess).index = index).map Entry.bnode := by
    rw [State.buckets, List.map_flatMap]
    exact congrArg (List.flatMap · _) (funext h.table)
  rw [hborn]
  refine List.Perm.map _ (List.Perm.trans ?_ h.bornPerm)
  exact ListGroups.perm_flatMap_filter (fun e : Entry => (s.key e.sess).index) g.born
    List.nodup_range fun e _ => List.mem_range.mpr (Key.index_lt _)

lemma Owns.leaving_eq (h : Owns g s) : s.leaving = g.gone.map Prod.fst := by
  rw [State.leaving, ← h.hand, h.expired, h.flags, Layout.gone, List.map_append, List.map_append]

lemma Owns.inTable_iff (h : Owns g s) : s.InTable i ↔ ∃ e ∈ g.live, e.sess = i := by
  constructor
  · rintro ⟨n, hn, hdata⟩
    obtain ⟨e, he, rfl⟩ := List.mem_map.mp (h.buckets_perm.mem_iff.mp hn)
    exact ⟨e, he, Ptr.session.inj ((h.linked e he).bucket.symm.trans hdata)⟩
  · rintro ⟨e, he, rfl⟩
    exact ⟨e.bnode, h.buckets_perm.mem_iff.mpr (List.mem_map_of_mem he), (h.linked e he).bucket⟩

lemma Owns.leaving_iff (h : Owns g s) : s.Leaving i ↔ ∃ w ∈ g.gone, w.2 = i := by
  rw [State.Leaving, h.leaving_eq]
  constructor
  · rintro ⟨n, hn, hdata⟩
    obtain ⟨w, hw, rfl⟩ := List.mem_map.mp hn
    exact ⟨w, hw, Ptr.session.inj ((h.left w hw).symm.trans hdata)⟩
  · rintro ⟨w, hw, rfl⟩
    exact ⟨w.1, List.mem_map_of_mem hw, h.left w hw⟩

/-- A session the process thread has at hand is not among the flows. -/
lemma Owns.aux_outside (h : Owns g s) (haux : s.auxSession = some i) :
    ¬ s.InTable i ∧ ¬ s.Leaving i := by
  obtain ⟨hlive, hgone⟩ := h.aux_apart haux
  rw [h.inTable_iff, h.leaving_iff]
  refine ⟨?_, ?_⟩
  · rintro ⟨e, he, heq⟩
    exact hlive e he heq
  · rintro ⟨w, hw, heq⟩
    exact hgone w hw heq

end Places

/-! ## The three kinds of steps -/

/-- The record of a flow with one packet more. -/
def FlowRecord.grow (r : FlowRecord) (p : Packet) : FlowRecord where
  flow := { r.flow with npack := r.flow.npack + 1, nbytes := r.flow.nbytes + p.len.toUInt64 }
  first := r.first
  last := p.ts

/-- The session a packet was put into. -/
def Event.joins? : Event → Option SessionId
  | opened i _ _ => some i
  | merged i => some i
  | _ => none

/-- An event that tells of no packet put into a session, and of an export only as it is in
memory. -/
def Event.Aside (s : State) (e : Event) : Prop :=
  e.joins? = none ∧ ∀ i r, e = .exported i r → s.Leaving i ∧ r = s.record i

/-- `insertFlow` is at work for the packet `p`. -/
structure Handles (p : Packet) (s : State) : Prop where
  reached : s.reached.getLast? = some p
  time : s.times.getLast? = some p.ts

/-- No flow appears and no record changes.  A flow leaves the table only if it has expired, or for
`initData`. -/
structure Still (s s' : State) : Prop where
  table : ∀ i, s'.InTable i → s.InTable i
  leaving : ∀ i, s'.Leaving i → s.InTable i ∨ s.Leaving i
  record : ∀ i, s.InTable i ∨ s.Leaving i → s'.InTable i ∨ s'.Leaving i → s'.record i = s.record i
  stays : ∀ i, s.InTable i →
    s'.InTable i ∨ Stale (s.record i).last s.lastPacketTimestamp ∨ s.inits < s'.inits
  trace : ∃ l, s'.trace = s.trace ++ l ∧ ∀ e ∈ l, e.Aside s

/-- The packet `p` is put into flow `j` of the table. -/
structure Merges (p : Packet) (j : SessionId) (s s' : State) : Prop where
  handles : Handles p s
  inTable : s.InTable j
  key : s.key j = p.key
  table : ∀ i, s'.InTable i ↔ s.InTable i
  leaving : ∀ i, s'.Leaving i → s.Leaving i ∧ i ≠ j
  record : s'.record j = (s.record j).grow p
  fresh : ¬ Stale (s.record j).last p.ts
  others : ∀ i, i ≠ j → s'.record i = s.record i
  trace : s'.trace = s.trace ++ [.tested (s.record j).last p.ts, .merged j]

/-- A flow with the packet `p` is put into the table, in session `i`. -/
structure Opens (p : Packet) (i : SessionId) (s s' : State) : Prop where
  handles : Handles p s
  new : ¬ s.InTable i
  table : ∀ j, s'.InTable j ↔ j = i ∨ s.InTable j
  leaving : ∀ j, s'.Leaving j → s.Leaving j ∧ j ≠ i
  record : s'.record i = recordOf (.start p)
  others : ∀ j, j ≠ i → s'.record j = s.record j
  trace : ∃ others, s'.trace = s.trace ++ [.opened i p.ts others]

/-- **What a step does to the flows** while session `i` is at hand. -/
inductive Effect (i : SessionId) (s s' : State) : Prop where
  | still (h : Still s s')
  | merge {p : Packet} {j : SessionId} (h : Merges p j s s')
  | start {p : Packet} (h : Opens p i s s')

/-- What a step does to the flows. -/
def Effects (s s' : State) : Prop :=
  ∃ i, Effect i s s'

section Still

variable {g : Layout} {s s' : State} {i : SessionId}

lemma inTable_congr (htable : s'.flowTable = s.flowTable) (hdata : s'.nodeData = s.nodeData) :
    s'.InTable i ↔ s.InTable i := by
  simp only [State.InTable, State.buckets, htable, hdata]

lemma leaving_congr (hleaving : s'.leaving = s.leaving) (hdata : s'.nodeData = s.nodeData) :
    s'.Leaving i ↔ s.Leaving i := by
  simp only [State.Leaving, hleaving, hdata]

/-- Nothing has moved. -/
lemma Still.of_same (htable : s'.flowTable = s.flowTable) (hdata : s'.nodeData = s.nodeData)
    (hleaving : s'.leaving = s.leaving)
    (hrecord : ∀ i, s.InTable i ∨ s.Leaving i → s'.record i = s.record i)
    (htrace : ∃ l, s'.trace = s.trace ++ l ∧ ∀ e ∈ l, e.Aside s) : Still s s' where
  table _ h := (inTable_congr htable hdata).mp h
  leaving _ h := Or.inr ((leaving_congr hleaving hdata).mp h)
  record i h _ := hrecord i h
  stays _ h := Or.inl ((inTable_congr htable hdata).mpr h)
  trace := htrace

lemma silent (s : State) : ∃ l, s.trace = s.trace ++ l ∧ ∀ e ∈ l, e.Aside s :=
  ⟨[], (List.append_nil _).symm, fun _ h => absurd h List.not_mem_nil⟩

/-- Nothing has moved, and nothing was logged. -/
lemma Still.of_silent (htable : s'.flowTable = s.flowTable) (hdata : s'.nodeData = s.nodeData)
    (hleaving : s'.leaving = s.leaving)
    (hrecord : ∀ i, s.InTable i ∨ s.Leaving i → s'.record i = s.record i)
    (htrace : s'.trace = s.trace) : Still s s' :=
  .of_same htable hdata hleaving hrecord (htrace ▸ silent s)

/-- Nothing has moved, and one event was logged. -/
lemma Still.of_logged (htable : s'.flowTable = s.flowTable) (hdata : s'.nodeData = s.nodeData)
    (hleaving : s'.leaving = s.leaving)
    (hrecord : ∀ i, s.InTable i ∨ s.Leaving i → s'.record i = s.record i) {e : Event}
    (htrace : s'.trace = s.trace ++ [e]) (he : e.Aside s) : Still s s' :=
  .of_same htable hdata hleaving hrecord ⟨[e], htrace, by simpa using he⟩

/-- Every flow is where it was. -/
lemma Still.of_owns (h : Owns g s) (h' : Owns g s')
    (hrecord : ∀ i, s.InTable i ∨ s.Leaving i → s'.record i = s.record i)
    (htrace : ∃ l, s'.trace = s.trace ++ l ∧ ∀ e ∈ l, e.Aside s) : Still s s' where
  table _ hi := h.inTable_iff.mpr (h'.inTable_iff.mp hi)
  leaving _ hi := Or.inr (h.leaving_iff.mpr (h'.leaving_iff.mp hi))
  record i hi _ := hrecord i hi
  stays _ hi := Or.inl (h'.inTable_iff.mpr (h.inTable_iff.mp hi))
  trace := htrace

/-- Writing the session at hand changes no flow. -/
lemma Owns.setSession_record (h : Owns g s) (haux : s.auxSession = some i) (v : IPSession)
    (j : SessionId) (hj : s.InTable j ∨ s.Leaving j) : (s.setSession i v).record j = s.record j := by
  have hne : j ≠ i := by
    rintro rfl
    obtain ⟨htable, hleaving⟩ := h.aux_outside haux
    exact hj.elim htable hleaving
  rw [State.record, State.setSession_of_ne _ _ hne]
  rfl

lemma Event.aside_of (s : State) {e : Event} (hjoins : e.joins? = none)
    (hexported : e.exported? = none) : e.Aside s := by
  refine ⟨hjoins, ?_⟩
  rintro i r rfl
  exact absurd hexported (by simp [Event.exported?])

end Still

/-! ## The export thread -/

section Export

variable {g : Layout} {s : State}

lemma popExpired_still (s : State) (hpopped : s.exporter.poppedNode = []) (drain : Bool)
    {idle : ExportPc} (hidle : idle.poppedNode = []) : Still s (popExpired drain idle s) := by
  have hleaving : (popExpired drain idle s).leaving = s.leaving := by
    unfold popExpired
    split
    · rw [State.leaving, State.leaving, hpopped, hidle]
    · rename_i n rest hexp
      rw [State.leaving, State.leaving, hpopped, hexp]
      rfl
  have hsame : (popExpired drain idle s).flowTable = s.flowTable
      ∧ (popExpired drain idle s).nodeData = s.nodeData ∧ (popExpired drain idle s).ips = s.ips
      ∧ (popExpired drain idle s).trace = s.trace := by
    unfold popExpired
    split
    · exact ⟨rfl, rfl, rfl, rfl⟩
    · exact ⟨rfl, rfl, rfl, rfl⟩
  refine .of_silent hsame.1 hsame.2.1 hleaving (fun i _ => ?_) hsame.2.2.2
  rw [State.record, State.record, hsame.2.2.1]

/-- The flow popped is printed; it is no longer among the flows. -/
lemma Owns.printFlow_still (h : Owns g s) {drain : Bool} {n : NodeId}
    (hpc : s.exporter = .popped drain n) : Still s (exportStep s) := by
  have hmem : n ∈ s.leaving := by simp [State.leaving, hpc, ExportPc.poppedNode]
  obtain ⟨w, hw, rfl⟩ := List.mem_map.mp (h.leaving_eq ▸ hmem)
  have hdata := h.left w hw
  set t := s.setSession w.2 { s.ips w.2 with exportationTimestamp := s.lastPacketTimestamp } with ht
  have hstep : exportStep s = ({ t with exporter := .printed drain w.1 w.2 }).log
      (.exported w.2 (t.record w.2)) := by
    rw [exportStep, hpc]
    simp only [sessionAt_eq hdata]
    rfl
  -- the export time is no part of the record
  have hrecord : ∀ j, t.record j = s.record j := by
    intro j
    by_cases hj : j = w.2
    · rw [hj, ht, State.record, State.setSession_self]
      rfl
    · rw [ht, State.record, State.setSession_of_ne _ _ hj]
      rfl
  rw [hstep]
  refine ⟨fun _ h => h, ?_, fun j _ _ => hrecord j, fun _ h => Or.inl h, _, rfl, ?_⟩
  · rintro j ⟨m, hm, hdata'⟩
    refine Or.inr ⟨m, ?_, hdata'⟩
    rw [State.leaving, hpc]
    exact List.mem_cons_of_mem _ hm
  · rw [List.forall_mem_singleton]
    refine ⟨rfl, fun j r heq => ?_⟩
    cases heq
    exact ⟨⟨w.1, hmem, hdata⟩, hrecord w.2⟩

/-- **The export thread puts no packet anywhere.** -/
lemma Owns.exportStep_still (h : Owns g s) : Still s (exportStep s) := by
  cases hpc : s.exporter with
  | loop =>
      have hstep : exportStep s
          = if s.stopEt then { s with exporter := .draining } else popExpired false .loop s := by
        rw [exportStep, hpc]
      rw [hstep]
      split_ifs
      · refine .of_silent rfl rfl ?_ (fun _ _ => rfl) rfl
        rw [State.leaving, State.leaving, hpc]
        rfl
      · exact popExpired_still s (by rw [hpc]; rfl) false rfl
  | popped drain n => exact h.printFlow_still hpc
  | printed drain n i =>
      obtain ⟨hlive, hgone⟩ := h.session_apart (i := i) (by simp [hpc, ExportPc.printedSession])
      have hstep : exportStep s = { releaseIPSession s i with exporter := .released drain n } := by
        rw [exportStep, hpc]
      have hsame : (releaseIPSession s i).flowTable = s.flowTable
          ∧ (releaseIPSession s i).nodeData = s.nodeData
          ∧ (releaseIPSession s i).expiredFlowList = s.expiredFlowList
          ∧ (releaseIPSession s i).flagsExpiredFlowList = s.flagsExpiredFlowList
          ∧ (releaseIPSession s i).trace = s.trace
          ∧ (releaseIPSession s i).ips
            = Function.update s.ips i { s.ips i with incoming := .zero } := by
        simp only [releaseIPSession]
        split
        · exact ⟨rfl, rfl, rfl, rfl, rfl, rfl⟩
        · exact ⟨rfl, rfl, rfl, rfl, rfl, rfl⟩
      obtain ⟨htable, hdata, hexpired, hflags, htrace, hips⟩ := hsame
      rw [hstep]
      refine .of_silent htable hdata ?_ (fun j hj => ?_) htrace
      · rw [State.leaving, State.leaving, hpc]
        simp only [hexpired, hflags]
        rfl
      · have hne : j ≠ i := by
          rintro rfl
          rw [h.inTable_iff, h.leaving_iff] at hj
          rcases hj with ⟨e, he, heq⟩ | ⟨w, hw, heq⟩
          · exact hlive e he heq
          · exact hgone w hw heq
        rw [State.record, State.record]
        simp only [hips, Function.update_of_ne hne]
  | released drain n =>
      have hstep : exportStep s = { releaseNodel s n with
          flowsTotal := (releaseNodel s n).flowsTotal + 1
          exporter := if drain then .draining else .loop } := by
        rw [exportStep, hpc]
      have hsame : (releaseNodel s n).flowTable = s.flowTable
          ∧ (releaseNodel s n).nodeData = s.nodeData
          ∧ (releaseNodel s n).expiredFlowList = s.expiredFlowList
          ∧ (releaseNodel s n).flagsExpiredFlowList = s.flagsExpiredFlowList
          ∧ (releaseNodel s n).trace = s.trace ∧ (releaseNodel s n).ips = s.ips := by
        unfold releaseNodel
        split
        · exact ⟨rfl, rfl, rfl, rfl, rfl, rfl⟩
        · exact ⟨rfl, rfl, rfl, rfl, rfl, rfl⟩
      obtain ⟨htable, hdata, hexpired, hflags, htrace, hips⟩ := hsame
      rw [hstep]
      refine .of_silent htable hdata ?_ (fun j _ => ?_) htrace
      · rw [State.leaving, State.leaving, hpc]
        simp only [hexpired, hflags]
        cases drain
        · rfl
        · rfl
      · rw [State.record, State.record]
        simp only [hips]
  | draining =>
      have hstep : exportStep s = popExpired true .finished s := by
        rw [exportStep, hpc]
      rw [hstep]
      exact popExpired_still s (by rw [hpc]; rfl) true rfl
  | finished =>
      have hstep : exportStep s = s := by
        rw [exportStep, hpc]
      rw [hstep]
      exact .of_silent rfl rfl rfl (fun _ _ => rfl) rfl

end Export

end Flow
