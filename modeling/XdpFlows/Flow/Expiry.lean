import XdpFlows.Flow.Counting

/-!
# Which flows expire

`cleanup_flows` walks the active list from its end and stops at the first flow that has not expired.
That is right because the list is in the order of the last packets as long as the clock does not step
back: `cleanup_exact` says that the flows that leave are those a scan of the whole table would find, that
they go behind the expired ones in the order of their last packets, and that everything else stays as
it was.  The export thread may take nodes from the front of the expired list in the meantime.

Between two packets, then, no flow in the table has its last packet more than the timeout before the
first packet of the current second, the one for which `cleanup_flows` was called.
-/

namespace Flow

open SessionWindow Sections

/-! ## What the export thread leaves alone -/

section Export

variable {g : Layout} {s : State} {i : SessionId}

lemma exportStep_nodeData (s : State) : (exportStep s).nodeData = s.nodeData := by
  rw [exportStep]
  split
  · split_ifs
    · rfl
    · rw [popExpired]
      split
      · rfl
      · rfl
  · split
    · rfl
    · rfl
  · simp only [releaseIPSession]
    split
    · rfl
    · rfl
  · simp only [releaseNodel]
    split
    · rfl
    · rfl
  · rw [popExpired]
    split
    · rfl
    · rfl
  · rfl

lemma popExpired_expired (drain : Bool) (idle : ExportPc) (s : State) :
    (popExpired drain idle s).expiredFlowList <:+ s.expiredFlowList := by
  rw [popExpired]
  split
  · exact List.suffix_refl _
  · rename_i n rest hexp
    rw [hexp]
    exact List.suffix_cons n rest

/-- It takes nodes from the front of the expired list. -/
lemma exportStep_expired (s : State) : (exportStep s).expiredFlowList <:+ s.expiredFlowList := by
  rw [exportStep]
  split
  · split_ifs
    · exact List.suffix_refl _
    · exact popExpired_expired ..
  · split
    · exact List.suffix_refl _
    · exact List.suffix_refl _
  · simp only [releaseIPSession]
    split
    · exact List.suffix_refl _
    · exact List.suffix_refl _
  · simp only [releaseNodel]
    split
    · exact List.suffix_refl _
    · exact List.suffix_refl _
  · exact popExpired_expired ..
  · exact List.suffix_refl _

/-- It writes to no session in the table. -/
lemma Owns.exportStep_ips (h : Owns g s) (hi : s.InTable i) : (exportStep s).ips i = s.ips i := by
  obtain ⟨e, he, rfl⟩ := h.inTable_iff.mp hi
  cases hpc : s.exporter with
  | popped drain n =>
      have hmem : n ∈ s.leaving := by simp [State.leaving, hpc, ExportPc.poppedNode]
      obtain ⟨w, hw, rfl⟩ := List.mem_map.mp (h.leaving_eq ▸ hmem)
      rw [exportStep, hpc]
      simp only [sessionAt_eq (h.left w hw)]
      exact State.setSession_of_ne s _ (h.gone_ne he w hw).symm
  | printed drain n j =>
      obtain ⟨hlive, -⟩ := h.session_apart (i := j) (by simp [hpc, ExportPc.printedSession])
      have hips : (releaseIPSession s j).ips
          = Function.update s.ips j { s.ips j with incoming := .zero } := by
        simp only [releaseIPSession]
        split
        · rfl
        · rfl
      rw [exportStep, hpc]
      simp only [hips]
      exact Function.update_of_ne (hlive e he) _ _
  | loop =>
      rw [exportStep, hpc]
      simp only
      split_ifs
      · rfl
      · rw [popExpired]
        split
        · rfl
        · rfl
  | released drain n =>
      rw [exportStep, hpc]
      simp only [releaseNodel]
      split
      · rfl
      · rfl
  | draining =>
      rw [exportStep, hpc]
      simp only [popExpired]
      split
      · rfl
      · rfl
  | finished =>
      rw [exportStep, hpc]

end Export

/-! ## The walk -/

/-- What may run beside `cleanup_flows`: `P l m` says that it can have made `m` of the expired list
`l`. -/
structure Beside (E : State → State → Prop) (P : List NodeId → List NodeId → Prop) : Prop where
  exports : ∀ s s', E s s' → ExportStep s s'
  refl : ∀ l, P l l
  pops : ∀ s s' l, E s s' → P l s.expiredFlowList → P l s'.expiredFlowList
  append : ∀ l m r, P l m → P (l ++ r) (m ++ r)

lemma beside_export : Beside ExportStep fun l m => m <:+ l where
  exports _ _ h := h
  refl := List.suffix_refl
  pops s s' l h hl := by
    rw [h]
    exact (exportStep_expired s).trans hl
  append l m r h := by
    obtain ⟨popped, rfl⟩ := h
    exact ⟨popped, (List.append_assoc ..).symm⟩

/-- Nothing runs. -/
lemma beside_nothing : Beside (fun _ _ => False) Eq where
  exports _ _ h := h.elim
  refl _ := rfl
  pops _ _ _ h := h.elim
  append _ _ _ h := by rw [h]

/-- What has become of `s₀` when the flows `moved` have left the table, and nothing else. -/
structure Sweep (s₀ : State) (moved : List Entry) (s : State) : Prop where
  table : ∀ index, s.flowTable index
    = (s₀.flowTable index).filter (· ∉ moved.map Entry.bnode)
  left : ∀ e ∈ moved, s.nodeData e.anode = .session e.sess
  nodeData : ∀ n ∉ moved.map Entry.anode, s.nodeData n = s₀.nodeData n
  ips : ∀ i, s.InTable i → s.ips i = s₀.ips i
  now : s.lastPacketTimestamp = s₀.lastPacketTimestamp
  stale : ∀ e ∈ moved,
    hasExpired (s₀.ips e.sess).lastpacketTimestamp s₀.lastPacketTimestamp = true

section Walk

variable {E : State → State → Prop} {P : List NodeId → List NodeId → Prop} {c : Clock} {s₀ s : State}
  {live moved : List Entry}

lemma Sweep.refl (s₀ : State) : Sweep s₀ [] s₀ where
  table index := by simp
  left _ he := absurd he List.not_mem_nil
  nodeData _ _ := rfl
  ips _ _ := rfl
  now := rfl
  stale _ he := absurd he List.not_mem_nil

/-- The export thread does not disturb it. -/
lemma Sweep.exportStep {g g' : Layout} (h : Sweep s₀ moved s) (ho : Owns g s)
    (hf : Frame g s g' (exportStep s)) : Sweep s₀ moved (exportStep s) where
  table index := by rw [hf.table, h.table]
  left e he := by rw [exportStep_nodeData, h.left e he]
  nodeData n hn := by rw [exportStep_nodeData, h.nodeData n hn]
  ips i hi := by
    have hi' : s.InTable i := (inTable_congr hf.table (exportStep_nodeData s)).mp hi
    rw [ho.exportStep_ips hi', h.ips i hi']
  now := hf.now.trans h.now
  stale := h.stale

/-- In the first loop: `n` is the last node of the active list. -/
def Sweeping (P : List NodeId → List NodeId → Prop) (c : Clock) (s₀ : State) (live : List Entry)
    (fuel : ℕ) (n : Option NodeId) : State → Prop :=
  At c [] fun g _ s => s.naux = none ∧ ∃ moved, Sweep s₀ moved s
    ∧ s.flagsExpiredFlowList = moved.map Entry.anode ∧ P s₀.expiredFlowList s.expiredFlowList
    ∧ live = g.live ++ moved.reverse ∧ n = (g.live.map Entry.anode).getLast? ∧ g.live.length ≤ fuel

/-- The last flow that is left has not expired. -/
def Stopped (s₀ : State) (left : List Entry) : Prop :=
  ∀ e ∈ left.getLast?,
    hasExpired (s₀.ips e.sess).lastpacketTimestamp s₀.lastPacketTimestamp = false

/-- After the first loop. -/
def SweepEnd (P : List NodeId → List NodeId → Prop) (c : Clock) (s₀ : State) (live : List Entry) :
    State → Prop :=
  At c [] fun g _ s => s.naux = none ∧ ∃ moved, Sweep s₀ moved s
    ∧ s.flagsExpiredFlowList = moved.map Entry.anode ∧ P s₀.expiredFlowList s.expiredFlowList
    ∧ live = g.live ++ moved.reverse ∧ Stopped s₀ g.live

/-- After `cleanup_flows`. -/
def SweepDone (P : List NodeId → List NodeId → Prop) (c : Clock) (s₀ : State) (live : List Entry) :
    State → Prop :=
  At c [] fun g _ s => s.naux = none ∧ ∃ moved, Sweep s₀ moved s
    ∧ s.flagsExpiredFlowList = []
    ∧ P (s₀.expiredFlowList ++ moved.map Entry.anode) s.expiredFlowList
    ∧ live = g.live ++ moved.reverse ∧ Stopped s₀ g.live

lemma Beside.stable (hE : Beside E P) {C : Layout → Flows Packet UInt64 → State → Prop}
    (hC : ∀ g a s g', Owns g s → Frame g s g' (Flow.exportStep s) → E s (Flow.exportStep s) → C g a s →
      C g' a (Flow.exportStep s)) : Stable E (At c [] C) := by
  rintro s s' ⟨g, a, hrep, hclock, hc⟩ hstep
  obtain rfl : s' = Flow.exportStep s := hE.exports s s' hstep
  obtain ⟨g', hrep', hframe⟩ := hrep.exportStep
  exact ⟨g', a, hrep', hframe.clock.trans hclock, hC g a s g' hrep.owns hframe hstep hc⟩

lemma Beside.stable_sweeping (hE : Beside E P) {fuel : ℕ} {n : Option NodeId} :
    Stable E (Sweeping P c s₀ live fuel n) := by
  refine hE.stable ?_
  rintro g a s g' ho hf hstep ⟨hnaux, moved, hsweep, hflags, hexpired, hlive, hn, hfuel⟩
  rw [← hf.live] at hlive hn hfuel
  exact ⟨hf.naux.trans hnaux, moved, hsweep.exportStep ho hf, hf.flags.trans hflags,
    hE.pops _ _ _ hstep hexpired, hlive, hn, hfuel⟩

lemma Beside.stable_sweepEnd (hE : Beside E P) : Stable E (SweepEnd P c s₀ live) := by
  refine hE.stable ?_
  rintro g a s g' ho hf hstep ⟨hnaux, moved, hsweep, hflags, hexpired, hlive, hstop⟩
  rw [← hf.live] at hlive hstop
  exact ⟨hf.naux.trans hnaux, moved, hsweep.exportStep ho hf, hf.flags.trans hflags,
    hE.pops _ _ _ hstep hexpired, hlive, hstop⟩

lemma Beside.stable_sweepDone (hE : Beside E P) : Stable E (SweepDone P c s₀ live) := by
  refine hE.stable ?_
  rintro g a s g' ho hf hstep ⟨hnaux, moved, hsweep, hflags, hexpired, hlive, hstop⟩
  rw [← hf.live] at hlive hstop
  exact ⟨hf.naux.trans hnaux, moved, hsweep.exportStep ho hf, hf.flags.trans hflags,
    hE.pops _ _ _ hstep hexpired, hlive, hstop⟩

/-- A turn of the loop adds a flow to those moved. -/
lemma Sweep.expireEntry (h : Sweep s₀ moved s) {g : Layout} (ho : Owns g s) {L : List Entry} {e : Entry}
    (hlive : g.live = L ++ [e]) {pool : Pool}
    (ho' : Owns { g with
      live := L
      born := g.born.filter fun x => x.bnode ≠ e.bnode
      flags := g.flags ++ [(e.anode, e.sess)] } (Flow.expireEntry s e pool))
    (hexp : hasExpired (s.ips e.sess).lastpacketTimestamp s.lastPacketTimestamp = true) :
    Sweep s₀ (moved ++ [e]) (Flow.expireEntry s e pool) := by
  have he : e ∈ g.live := by simp [hlive]
  have hlink := ho.linked e he
  -- a flow that was moved points to its session, this one does not
  have hne : ∀ x ∈ moved, x.anode ≠ e.anode := by
    intro x hx heq
    have hleft := h.left x hx
    rw [heq, hlink.active] at hleft
    cases hleft
  refine ⟨fun index => ?_, ?_, fun n hn => ?_, fun i hi => ?_, h.now, ?_⟩
  · have hborn : (Flow.expireEntry s e pool).flowTable index
        = (s.flowTable index).filter (· ≠ e.bnode) := by
      rw [ho'.table, ho.table, List.filter_map, List.filter_comm]
      rfl
    rw [hborn, h.table, List.filter_filter]
    refine List.filter_congr fun b _ => ?_
    rw [List.map_append, Bool.eq_iff_iff]
    simp [and_comm]
  · intro x hx
    rcases List.mem_append.mp hx with hx | hx
    · exact (Function.update_of_ne (hne x hx) _ _).trans (h.left x hx)
    · rw [List.mem_singleton.mp hx]
      exact Function.update_self ..
  · rw [List.map_append, List.mem_append, not_or] at hn
    have hna : n ≠ e.anode := by simpa using hn.2
    exact (Function.update_of_ne hna _ _).trans (h.nodeData n hn.1)
  · obtain ⟨x, hx, rfl⟩ := ho'.inTable_iff.mp hi
    exact h.ips _ (ho.inTable_iff.mpr ⟨x, by rw [hlive]; exact List.mem_append_left _ hx, rfl⟩)
  · intro x hx
    rcases List.mem_append.mp hx with hx | hx
    · exact h.stale x hx
    · rw [List.mem_singleton.mp hx, ← h.now, ← h.ips _ (ho.inTable_iff.mpr ⟨e, he, rfl⟩)]
      exact hexp

/-- A flow that stays is looked at. -/
lemma Sweep.log (h : Sweep s₀ moved s) (e : Event) : Sweep s₀ moved (s.log e) :=
  ⟨h.table, h.left, h.nodeData, h.ips, h.now, h.stale⟩

/-- The walk comes to its end. -/
lemma safe_cleanupLoop (hE : Beside E P) {fuel : ℕ} {n : Option NodeId}
    (h : Sweeping P c s₀ live fuel n s) :
    Safe E (fun _ => True) (fun _ => SweepEnd P c s₀ live) (cleanupLoop fuel n) s := by
  have hnone : ∀ {fuel s}, Sweeping P c s₀ live fuel none s →
      Safe E (fun _ => True) (fun _ => SweepEnd P c s₀ live) (.ret ()) s := by
    rintro fuel s ⟨g, a, hrep, hclock, hnaux, moved, hsweep, hflags, hexpired, hlive, hn, -⟩
    have hnil : g.live = [] := by simpa [eq_comm] using hn
    refine Safe.done hE.stable_sweepEnd (fun _ _ => trivial)
      ⟨g, a, hrep, hclock, hnaux, moved, hsweep, hflags, hexpired, hlive, ?_⟩
    rw [hnil]
    exact fun e he => absurd he (by simp)
  induction fuel generalizing n s with
  | zero =>
      have hn : n = none := by
        obtain ⟨g, a, -, -, -, moved, -, -, -, -, hn, hfuel⟩ := h
        rw [List.length_eq_zero_iff.mp (Nat.le_zero.mp hfuel)] at hn
        exact hn
      subst hn
      exact hnone h
  | succ fuel ih =>
      cases n with
      | none => exact hnone h
      | some n =>
          refine Safe.atomic_bind hE.stable_sweeping (fun _ _ => trivial) ?_ h
          rintro s ⟨g, a, hrep, hclock, hnaux, moved, hsweep, hflags, hexpired, hlive, hn, hfuel⟩
          obtain ⟨L, e, hconcat⟩ : ∃ L e, g.live = L ++ [e] := by
            rcases List.eq_nil_or_concat g.live with hnil | ⟨L, e, hcons⟩
            · rw [hnil] at hn
              exact absurd hn (by simp)
            · exact ⟨L, e, hcons.trans List.concat_eq_append⟩
          obtain rfl : n = e.anode := by
            rw [hconcat, List.map_append] at hn
            simpa using hn
          cases hexp : hasExpired (s.ips e.sess).lastpacketTimestamp s.lastPacketTimestamp with
          | false =>
              have hlink := hrep.owns.linked e (by simp [hconcat])
              obtain ⟨a', hrep', -, -⟩ := hrep.keepEntry hconcat hexp
              rw [cleanupStep_kept hlink hexp]
              have hend : SweepEnd P c s₀ live (s.log (.tested (s.ips e.sess).lastpacketTimestamp
                  s.lastPacketTimestamp)) := by
                refine ⟨g, a', hrep', (clock_log s rfl rfl).trans hclock, hnaux, moved, hsweep.log _,
                  hflags, hexpired, hlive, fun x hx => ?_⟩
                rw [hconcat, List.getLast?_concat, Option.mem_some_iff] at hx
                rw [← hx, ← hsweep.now, ← hsweep.ips _
                  (hrep.owns.inTable_iff.mpr ⟨e, by simp [hconcat], rfl⟩)]
                exact hexp
              cases fuel with
              | zero => exact Safe.done hE.stable_sweepEnd (fun _ _ => trivial) hend
              | succ _ => exact Safe.done hE.stable_sweepEnd (fun _ _ => trivial) hend
          | true =>
              obtain ⟨pool, a', hstep, hrep', -, -⟩ := hrep.expireEntry hconcat hexp
              rw [hstep]
              refine ih ⟨_, a', hrep', (expireEntry_clock ..).trans hclock, hnaux, moved ++ [e],
                hsweep.expireEntry hrep.owns hconcat hrep'.owns hexp, ?_, hexpired, ?_, rfl, ?_⟩
              · show s.flagsExpiredFlowList ++ [e.anode] = _
                rw [hflags, List.map_append]
                rfl
              · rw [hlive, hconcat, List.reverse_append, List.append_assoc]
                rfl
              · rw [hconcat, List.length_append, List.length_singleton] at hfuel
                exact Nat.le_of_succ_le_succ hfuel

/-- `cleanup_flows`, from a state in which no flow was expired by flag. -/
lemma safe_cleanupFlows (hE : Beside E P) {g : Layout} {a : Flows Packet UInt64} (hrep : Rep g a [] s₀)
    (hnaux : s₀.naux = none) (hflags : s₀.flagsExpiredFlowList = []) :
    Safe E (fun _ => True) (fun _ => SweepDone P s₀.clock s₀ g.live) cleanupFlows s₀ := by
  have hstart : At s₀.clock [] (fun g' _ s => s.naux = none ∧ Sweep s₀ [] s
      ∧ s.flagsExpiredFlowList = [] ∧ P s₀.expiredFlowList s.expiredFlowList
      ∧ g'.live = g.live) s₀ :=
    ⟨g, a, hrep, rfl, hnaux, .refl s₀, hflags, hE.refl _, rfl⟩
  refine Safe.atomic_bind (hE.stable ?_) (fun _ _ => trivial) ?_ hstart
  · rintro g₁ a₁ s g₂ ho hf hstep ⟨hnaux, hsweep, hflags, hexpired, hlive⟩
    exact ⟨hf.naux.trans hnaux, hsweep.exportStep ho hf, hf.flags.trans hflags,
      hE.pops _ _ _ hstep hexpired, hf.live.trans hlive⟩
  · rintro s ⟨g', a', hrep', hclock, hnaux', hsweep, hflags', hexpired, hlive⟩
    have hbegin : Sweeping P s₀.clock s₀ g.live s.activeFlowList.length s.activeFlowList.getLast? s := by
      refine ⟨g', a', hrep', hclock, hnaux', [], hsweep, hflags', hexpired, ?_, ?_, ?_⟩
      · rw [hlive, List.reverse_nil, List.append_nil]
      · rw [hrep'.owns.active]
      · rw [hrep'.owns.active, List.length_map]
    simp only [hflags']
    refine Safe.bind (safe_cleanupLoop hE hbegin) fun _ s hs => ?_
    refine Safe.sec hE.stable_sweepEnd (fun _ _ => trivial) ?_ hs
    rintro s ⟨g₁, a₁, hrep₁, hclock₁, hnaux₁, moved, hsweep₁, hflags₁, hexpired₁, hlive₁, hstop⟩
    refine Safe.done hE.stable_sweepDone (fun _ _ => trivial) ⟨_, a₁, hrep₁.spliceExpired, hclock₁,
      hnaux₁, moved, ?_, rfl, ?_, hlive₁, hstop⟩
    · exact ⟨hsweep₁.table, hsweep₁.left, hsweep₁.nodeData, hsweep₁.ips, hsweep₁.now, hsweep₁.stale⟩
    · show P _ (s.expiredFlowList ++ s.flagsExpiredFlowList)
      rw [hflags₁]
      exact hE.append _ _ _ hexpired₁

end Walk

/-! ## What a scan of the table would find -/

/-- The session a node of the active list stands for. -/
def State.activeSession (s : State) (n : NodeId) : Option SessionId :=
  match s.nodeData n with
  | .node b => s.sessionAt b
  | _ => none

/-- The flow of session `i` has expired. -/
def State.expires (s : State) (i : SessionId) : Bool :=
  hasExpired (s.ips i).lastpacketTimestamp s.lastPacketTimestamp

/-- The nodes of the active list whose flows have expired. -/
def State.expiredNodes (s : State) : List NodeId :=
  s.activeFlowList.filter fun n => (s.activeSession n).any s.expires

/-- What `cleanup_flows` has done to `s`. -/
structure Cleaned (s s' : State) : Prop where
  /-- The list of the flows that stay, in the order they had. -/
  active : s'.activeFlowList = s.activeFlowList.filter fun n => !(s.activeSession n).any s.expires
  table : ∀ index, s'.flowTable index
    = (s.flowTable index).filter fun b => !(s.sessionAt b).any s.expires
  /-- The sessions a scan of the whole table would select are gone, and no others. -/
  inTable : ∀ i, s'.InTable i ↔ s.InTable i ∧ ¬ Stale (s.record i).last s.lastPacketTimestamp
  unchanged : ∀ i, s'.InTable i → s'.ips i = s.ips i
  linked : ∀ n ∈ s'.activeFlowList, s'.nodeData n = s.nodeData n
    ∧ s'.activeSession n = s.activeSession n
  /-- The nodes that leave point to their sessions directly. -/
  left : ∀ n ∈ s.expiredNodes, ∃ i, s.activeSession n = some i ∧ s.InTable i
    ∧ s'.nodeData n = .session i
  /-- From the back of the active list they are in the order of their last packets. -/
  inOrder : (s.expiredNodes.reverse.filterMap s.activeSession).Pairwise
    fun i j => (s.record i).last ≤ (s.record j).last
  flags : s'.flagsExpiredFlowList = []

section Scan

variable {g : Layout} {a : Flows Packet UInt64} {pend : List Packet} {s s' : State}

lemma stale_mono {l m now : UInt64} (hlm : l ≤ m) (hm : m ≤ now) (h : Stale m now) : Stale l now := by
  have hlt := (stale_iff hm).mp h
  have hle := UInt64.le_iff_toNat_le.mp hlm
  exact (stale_iff (hlm.trans hm)).mpr (by omega)

/-- **The active list is in the order of the last packets**, the latest first. -/
lemma Rep.active_sorted (h : Rep g a pend s) (hsteady : s.times.Pairwise (· ≤ ·)) :
    g.live.Pairwise fun x y => (s.record y.sess).last ≤ (s.record x.sess).last := by
  have horder := (h.shows.reach.inOrder (by rw [Rules.Steady, h.shows.times]; exact hsteady)).sorted
  have hlive : a.live.Pairwise fun S T => rules.last T ≤ rules.last S :=
    List.pairwise_reverse.mp (List.pairwise_append.mp horder).2.1
  have hmap : g.live.map (fun e => (s.record e.sess).last) = a.live.map rules.last := by
    have hrecords := congrArg (List.map FlowRecord.last) h.shows.live
    rwa [List.map_map, List.map_map] at hrecords
  have hpairs : (a.live.map rules.last).Pairwise fun x y => y ≤ x := List.pairwise_map.mpr hlive
  rw [← hmap] at hpairs
  exact List.pairwise_map.mp hpairs

lemma Entry.Linked.activeSession {e : Entry} (h : e.Linked s.nodeData s.ips) :
    s.activeSession e.anode = some e.sess := by
  simp only [State.activeSession, h.active, State.sessionAt, h.bucket]

/-- **All that is left is fresh**, if the last flow is. -/
lemma Rep.fresh_of_stopped (h : Rep g a pend s) (hsteady : s.times.Pairwise (· ≤ ·))
    {left gone : List Entry} (hlive : g.live = left ++ gone) (hstop : Stopped s left) :
    ∀ e ∈ left, s.expires e.sess = false := by
  rcases List.eq_nil_or_concat left with rfl | ⟨L, x, rfl⟩
  · exact fun e he => absurd he List.not_mem_nil
  · rw [List.concat_eq_append] at hlive hstop ⊢
    have hx : s.expires x.sess = false := hstop x (by simp)
    have hsorted := h.active_sorted hsteady
    rw [hlive, List.append_assoc] at hsorted
    intro e he
    rcases List.mem_append.mp he with he | he
    · have hle := (List.pairwise_append.mp hsorted).2.2 e he x (by simp)
      have hmem : e ∈ g.live := by
        rw [hlive]
        exact List.mem_append_left _ (List.mem_append_left _ he)
      have hpast := (h.past hsteady (h.owns.inTable_iff.mpr ⟨e, hmem, rfl⟩)).1
      by_contra hstale
      rw [Bool.not_eq_false] at hstale
      have hstale' : s.expires x.sess = true := stale_mono hle hpast hstale
      rw [hx] at hstale'
      cases hstale'
    · rw [List.mem_singleton.mp he]
      exact hx

/-- A scan splits a list of nodes like the flows they belong to. -/
lemma filter_split {f : Entry → NodeId} {q : NodeId → Bool} {left gone : List Entry}
    (hleft : ∀ e ∈ left, q (f e) = true) (hgone : ∀ e ∈ gone, q (f e) = false) :
    ((left ++ gone).map f).filter q = left.map f
      ∧ ((left ++ gone).map f).filter (fun n => !q n) = gone.map f := by
  have hl : ∀ n ∈ left.map f, q n = true := by simpa using hleft
  have hg : ∀ n ∈ gone.map f, q n = false := by simpa using hgone
  rw [List.map_append, List.filter_append, List.filter_append, List.filter_eq_self.mpr hl,
    List.filter_eq_nil_iff.mpr (fun n hn => by simp [hg n hn]),
    List.filter_eq_nil_iff.mpr (fun n hn => by simp [hl n hn]),
    List.filter_eq_self.mpr (fun n hn => by simp [hg n hn])]
  exact ⟨List.append_nil _, List.nil_append _⟩

/-- **The walk from the end finds what a scan would find.** -/
lemma SweepDone.cleaned {P : List NodeId → List NodeId → Prop} {c : Clock} (h : Rep g a pend s)
    (hsteady : s.times.Pairwise (· ≤ ·)) (hdone : SweepDone P c s g.live s') :
    Cleaned s s' ∧ P (s.expiredFlowList ++ s.expiredNodes.reverse) s'.expiredFlowList := by
  obtain ⟨g', a', hrep', -, -, moved, hsweep, hflags, hexpired, hlive, hstop⟩ := hdone
  have ho := h.owns
  have ho' := hrep'.owns
  have hfresh := h.fresh_of_stopped hsteady hlive hstop
  have hstale : ∀ e ∈ moved.reverse, s.expires e.sess = true :=
    fun e he => hsweep.stale e (List.mem_reverse.mp he)
  have hmem : ∀ e, e ∈ g.live ↔ e ∈ g'.live ∨ e ∈ moved := by
    intro e
    rw [hlive, List.mem_append, List.mem_reverse]
  have hleft : ∀ e ∈ g'.live, (!(s.activeSession e.anode).any s.expires) = true := by
    intro e he
    rw [(ho.linked e ((hmem e).mpr (.inl he))).activeSession]
    simp [hfresh e he]
  have hgone : ∀ e ∈ moved.reverse, (!(s.activeSession e.anode).any s.expires) = false := by
    intro e he
    rw [(ho.linked e ((hmem e).mpr (.inr (List.mem_reverse.mp he)))).activeSession]
    simp [hstale e he]
  have hsplit := filter_split (f := Entry.anode)
    (q := fun n => !(s.activeSession n).any s.expires) hleft hgone
  rw [← hlive, ← ho.active] at hsplit
  obtain ⟨hactive, hnodes⟩ := hsplit
  simp only [Bool.not_not] at hnodes
  have hnodes' : s.expiredNodes.reverse = moved.map Entry.anode := by
    rw [State.expiredNodes, hnodes, ← List.map_reverse, List.reverse_reverse]
  refine ⟨⟨ho'.active.trans hactive.symm, fun index => ?_, fun i => ?_, hsweep.ips, ?_, ?_, ?_, hflags⟩,
    ?_⟩
  · rw [hsweep.table index]
    refine List.filter_congr fun b hb => ?_
    rw [ho.table index] at hb
    obtain ⟨e, he, rfl⟩ := List.mem_map.mp hb
    have he' := ho.bornPerm.mem_iff.mp (List.mem_filter.mp he).1
    have hsess : s.sessionAt e.bnode = some e.sess := by
      simp only [State.sessionAt, (ho.linked e he').bucket]
    rw [hsess, Option.any_some]
    rcases (hmem e).mp he' with hl | hm
    · have hnodup := ho.bnodes_nodup
      rw [hlive, List.map_append, List.map_reverse] at hnodup
      have hout : e.bnode ∉ moved.map Entry.bnode := fun hm => by
        refine List.disjoint_of_nodup_append hnodup (List.mem_map_of_mem hl) ?_
        exact List.mem_reverse.mpr hm
      simp [hout, hfresh e hl]
    · have hin : e.bnode ∈ moved.map Entry.bnode := List.mem_map_of_mem hm
      simp [hin, hstale e (List.mem_reverse.mpr hm)]
  · rw [ho'.inTable_iff, ho.inTable_iff]
    constructor
    · rintro ⟨e, he, rfl⟩
      refine ⟨⟨e, (hmem e).mpr (.inl he), rfl⟩, fun hst => ?_⟩
      have hst' : s.expires e.sess = true := hst
      rw [hfresh e he] at hst'
      cases hst'
    · rintro ⟨⟨e, he, rfl⟩, hst⟩
      rcases (hmem e).mp he with hl | hm
      · exact ⟨e, hl, rfl⟩
      · exact absurd (hstale e (List.mem_reverse.mpr hm)) hst
  · intro n hn
    rw [ho'.active] at hn
    obtain ⟨e, he, rfl⟩ := List.mem_map.mp hn
    have hlink' := ho'.linked e he
    have hlink := ho.linked e ((hmem e).mpr (.inl he))
    exact ⟨hlink'.active.trans hlink.active.symm,
      hlink'.activeSession.trans hlink.activeSession.symm⟩
  · intro n hn
    rw [← List.mem_reverse, hnodes'] at hn
    obtain ⟨e, he, rfl⟩ := List.mem_map.mp hn
    have he' := (hmem e).mpr (.inr he)
    exact ⟨e.sess, (ho.linked e he').activeSession, ho.inTable_iff.mpr ⟨e, he', rfl⟩,
      hsweep.left e he⟩
  · have hsess : (moved.map Entry.anode).filterMap s.activeSession = moved.map Entry.sess := by
      rw [List.filterMap_map, List.filterMap_congr (g := some ∘ Entry.sess), List.filterMap_eq_map]
      intro e he
      exact (ho.linked e ((hmem e).mpr (.inr he))).activeSession
    rw [hnodes', hsess, List.pairwise_map]
    have hsorted := h.active_sorted hsteady
    rw [hlive] at hsorted
    exact List.pairwise_reverse.mp (List.pairwise_append.mp hsorted).2.1
  · rw [hnodes']
    exact hexpired

end Scan

/-! ## Where `cleanup_flows` is called -/

/-- `process_packet` up to `cleanup_flows`, or to where it would be; whether it is called. -/
def untilCleanup (p : Packet) : Prog State Bool := do
  Prog.act (stampClock p)
  if ← Prog.atomic firstPacket then
    Prog.act countSeconds
    return true
  else
    return false

/-- What `process_packet` does afterwards. -/
def afterCleanup (p : Packet) (cleans : Bool) : Prog State Unit :=
  if cleans then do
    cleanupFlows
    Prog.act fun s => { s with previous2 := s.previous, previous := s.current }
    parseFrame p
  else do
    Prog.act sameSecond
    parseFrame p

lemma processPacket_untilCleanup (p : Packet) :
    processPacket p = untilCleanup p >>= afterCleanup p := by
  refine congrArg (Prog.sec _) (funext fun s => congrArg (Prog.sec _) (funext fun s' => ?_))
  show (if (firstPacket s').2 = true then _ else _)
    = Prog.bind (if (firstPacket s').2 = true then _ else _) _
  cases (firstPacket s').2 with
  | false => rfl
  | true =>
      refine congrArg (Prog.sec _) (funext fun _ => ?_)
      exact Prog.bind_assoc cleanupFlows _ fun _ => parseFrame p

/-- `cleanup_flows` is called in a state: by `perSecOps` for the last of the packets, or by
`reset_flow_table` after them. -/
inductive Cleans : List Packet → State → Prop where
  | second {ps : List Packet} {p : Packet} {s s' : State} (h : Run ps s .idle)
      (hends : Ends ExportStep (untilCleanup p) s true s') : Cleans (ps ++ [p]) s'
  | reset {ps : List Packet} {s s' : State} (h : Run ps s .idle)
      (hends : Ends ExportStep
        (Prog.act fun s => { s with lastPacketTimestamp := infinity }.log .reset) s () s') :
      Cleans ps s'

section Calls

variable {ps : List Packet} {p : Packet} {c : Clock} {s s' : State}

/-- The process thread goes on for a while, and the export thread beside it. -/
lemma Run.reaches_of_ends {α : Type} {prog : Prog State α} {rest : α → Prog State Unit} {x : α}
    (hends : Ends ExportStep prog s x s') (h : Run ps s (.busy (prog >>= rest))) :
    Run ps s' (.busy (rest x)) := by
  induction hends with
  | ret a s => exact h
  | sec _ ih => exact ih h.busy
  | env hs _ ih => exact ih (h.export hs)

/-- Such a state occurs in a run, with `cleanup_flows` next. -/
lemma run_untilCleanup (h : Run ps s .idle) (hends : Ends ExportStep (untilCleanup p) s true s') :
    Run (ps ++ [p]) s' (.busy (afterCleanup p true)) := by
  have hrun := h.packet p
  rw [processPacket_untilCleanup] at hrun
  exact Run.reaches_of_ends hends hrun

/-- **Up to `cleanup_flows`** the monitor stays idle. -/
lemma safe_untilCleanup (h : Idle c s) :
    Safe ExportStep (fun _ => True) (fun cleans => fun s => cleans = true → Idle (c.stamp p).init s)
      (untilCleanup p) s := by
  have hstarted := h.started p
  refine Safe.act_bind stable_idle (fun _ _ => trivial) (fun s hs => ?_) h
  refine Safe.atomic_bind stable_idle (fun _ _ => trivial) (fun s hs' => ?_) (hs.stamp p)
  obtain ⟨-, htidy, -⟩ := hs'.first
  cases hret : (firstPacket s).2 with
  | false =>
      refine Safe.ret (P := fun _ => True) (fun _ _ _ _ => trivial) (fun _ _ => trivial)
        (fun s _ hcleans => ?_) trivial
      cases hcleans
  | true =>
      refine Safe.act_bind stable_idle (fun _ _ => trivial) (fun s hs => ?_) htidy.idle
      exact Safe.ret stable_idle (fun _ _ => trivial) (fun s hs _ => hs) (hs.count hstarted)

lemma Run.idle_sorted (h : Run ps s .idle) (hsorted : (ps.map Packet.ts).Pairwise (· ≤ ·)) :
    ∃ c, Idle c s ∧ c.times.Pairwise (· ≤ ·) := by
  refine ⟨_, h.inPhase, ?_⟩
  rwa [Clock.after_times]

/-- **Where `cleanup_flows` is called** the monitor is idle, with the clock not behind. -/
lemma Cleans.idle_sorted (h : Cleans ps s) (hsorted : (ps.map Packet.ts).Pairwise (· ≤ ·)) :
    ∃ c, Idle c s ∧ c.times.Pairwise (· ≤ ·) := by
  cases h with
  | @second ps p s₀ _ h hends =>
      refine ⟨_, (safe_untilCleanup h.inPhase).ends hends rfl, ?_⟩
      rwa [Clock.init_times, Clock.stamp_times, Clock.after_times, ← List.map_singleton,
        ← List.map_append]
  | @reset _ s₀ _ h hends =>
      have hidle : Idle (Clock.after ps) s₀ := h.inPhase
      have hsafe : Safe ExportStep (fun _ => True) (fun _ s => Idle (Clock.after ps).reset s)
          (Prog.act fun s => { s with lastPacketTimestamp := infinity }.log .reset) s₀ :=
        Safe.sec stable_idle (fun _ _ => trivial)
          (fun s hs => Safe.done stable_idle (fun _ _ => trivial) hs.reset.idle) hidle
      refine ⟨_, hsafe.ends hends, ?_⟩
      rw [Clock.reset, Clock.after_times, List.pairwise_append]
      refine ⟨hsorted, List.pairwise_singleton _ _, fun t _ u hu => ?_⟩
      rw [List.mem_singleton.mp hu]
      exact UInt64.le_iff_toNat_le.mpr (Nat.le_of_lt_succ t.toNat_lt)

/-- **What `cleanup_flows` does**, with whatever may run beside it. -/
lemma Idle.cleaned {E : State → State → Prop} {P : List NodeId → List NodeId → Prop}
    (h : Idle c s) (hsteady : c.times.Pairwise (· ≤ ·)) (hE : Beside E P)
    (hends : Ends E cleanupFlows s () s') :
    Cleaned s s' ∧ P (s.expiredFlowList ++ s.expiredNodes.reverse) s'.expiredFlowList := by
  obtain ⟨g, a, hrep, rfl, hnaux, hflags, -⟩ := h
  have hdone := (safe_cleanupFlows hE hrep hnaux hflags).ends hends
  exact SweepDone.cleaned hrep hsteady hdone

end Calls

/-! ## Between two packets -/

/-- The first packet of the second the last one falls into. -/
def firstOfSecond (ps : List Packet) : Option Packet :=
  ps.getLast?.bind fun p => ps.find? (·.sec = p.sec)

/-- No flow in the table has its last packet more than the timeout before `t`. -/
def FreshSince (t : UInt64) (s : State) : Prop :=
  ∀ i, s.InTable i → t.toNat ≤ (s.record i).last.toNat + expirationFlowTime.toNat

section Since

variable {ps : List Packet} {p q : Packet} {b c : Clock} {s s' : State} {t : UInt64}

/-- Packets that come later than `t` change nothing about it. -/
lemma FreshSince.effects (h : FreshSince t s) (hb : b.times.Pairwise (· ≤ ·)) (hs : Sound b s)
    (ht : t ∈ s.times) (he : Effects s s') : FreshSince t s' := by
  have hlate : ∀ {q}, Handles q s → t.toNat ≤ q.ts.toNat + expirationFlowTime.toNat := by
    intro q hq
    obtain ⟨ts, htimes⟩ := List.getLast?_eq_some_iff.mp hq.time
    have hsteady := hb.sublist hs.2.times.sublist
    have hclock : s.clock.times = ts ++ [q.ts] := htimes
    rw [hclock] at hsteady
    rw [htimes] at ht
    rcases List.mem_append.mp ht with ht | ht
    · have hle := (List.pairwise_append.mp hsteady).2.2 t ht q.ts (List.mem_singleton.mpr rfl)
      exact (UInt64.le_iff_toNat_le.mp hle).trans (Nat.le_add_right _ _)
    · rw [List.mem_singleton.mp ht]
      exact Nat.le_add_right _ _
  obtain ⟨i, he⟩ := he
  intro j hj
  cases he with
  | still hstill =>
      have hj' := hstill.table j hj
      rw [hstill.record j (.inl hj') (.inl hj)]
      exact h j hj'
  | merge hmerges =>
      rename_i q k
      by_cases hjk : j = k
      · rw [hjk, hmerges.record]
        exact hlate hmerges.handles
      · rw [hmerges.others j hjk]
        exact h j ((hmerges.table j).mp hj)
  | start hopens =>
      by_cases hji : j = i
      · rw [hji, hopens.record]
        exact hlate hopens.handles
      · rw [hopens.others j hji]
        exact h j (((hopens.table j).mp hj).resolve_left hji)

/-- What the clock was set to is not forgotten. -/
lemma times_effects (ht : t ∈ s.times) (he : Effects s s') : t ∈ s'.times := by
  have hgrow : ∀ l, s'.trace = s.trace ++ l → t ∈ s'.times := by
    intro l htrace
    rw [State.times, htrace, List.filterMap_append]
    exact List.mem_append_left _ ht
  obtain ⟨i, he⟩ := he
  cases he with
  | still hstill =>
      obtain ⟨l, htrace, -⟩ := hstill.trace
      exact hgrow l htrace
  | merge hmerges => exact hgrow _ hmerges.trace
  | start hopens =>
      obtain ⟨others, htrace⟩ := hopens.trace
      exact hgrow _ htrace

/-- What holds of a time between two packets. -/
def Since (t : UInt64) (s : State) : Prop :=
  t ∈ s.times ∧ FreshSince t s

lemma Since.effects (h : Since t s) (hb : b.times.Pairwise (· ≤ ·)) (hs : Sound b s)
    (he : Effects s s') : Since t s' :=
  ⟨times_effects h.1 he, h.2.effects hb hs h.1 he⟩

lemma Since.exportStep (h : Since t s) (hb : b.times.Pairwise (· ≤ ·)) (hs : Sound b s)
    (hstep : ExportStep s s') : Since t s' := by
  obtain ⟨g, a, pend, hrep⟩ := hs.1
  rw [hstep]
  exact h.effects hb hs ⟨0, .still hrep.owns.exportStep_still⟩

/-- What is known since some time is still known at the end of a program. -/
lemma Since.keeps {α : Type} {Q : α → State → Prop} {prog : Prog State α} (h : Since t s)
    (hb : b.times.Pairwise (· ≤ ·)) (hprog : Guarantees ExportStep (Sound b) Effects Q prog s) :
    Guarantees ExportStep (Sound b) Effects (fun x s => Q x s ∧ Since t s) prog s :=
  hprog.keeps (fun _ _ hs _ ht he => ht.effects hb hs he)
    (fun _ _ hs _ ht hstep => ht.exportStep hb hs hstep) h

/-- Nothing in the table has expired, if the last flow has not. -/
lemma Swept.since {K : Session Packet → Prop} (h : Swept c K s) (hsorted : c.times.Pairwise (· ≤ ·))
    (hmem : c.now ∈ c.times) : Since c.now s := by
  obtain ⟨g, a, hrep, rfl, -, -, -, hlast⟩ := h
  have hstop : Stopped s g.live := by
    intro e he
    have hrecord : some (s.record e.sess) = a.live.getLast?.map recordOf := by
      rw [← List.getLast?_map, ← hrep.shows.live, List.getLast?_map, Option.mem_def.mp he]
      rfl
    obtain ⟨S, hS, hrec⟩ := Option.map_eq_some_iff.mp hrecord.symm
    have hfresh := hlast S hS
    rw [Stale, Bool.not_eq_true, hrep.shows.now] at hfresh
    have htime : (s.ips e.sess).lastpacketTimestamp = rules.last S :=
      (congrArg FlowRecord.last hrec).symm
    rw [htime]
    exact hfresh
  have hfresh := hrep.fresh_of_stopped hsorted (List.append_nil _).symm hstop
  refine ⟨hmem, fun i hi => ?_⟩
  obtain ⟨e, he, rfl⟩ := hrep.owns.inTable_iff.mp hi
  have hpast := (hrep.past hsorted hi).1
  have hnot : ¬ Stale (s.record e.sess).last s.lastPacketTimestamp := by
    rw [Stale, Bool.not_eq_true]
    exact hfresh e he
  rw [stale_iff hpast] at hnot
  exact Nat.not_lt.mp hnot

/-- An empty table holds nothing old. -/
lemma Tidy.since (h : Tidy c (fun _ => False) s) (hmem : t ∈ c.times) : Since t s := by
  obtain ⟨g, a, hrep, rfl, -, -, hnone⟩ := h
  refine ⟨hmem, fun i hi => ?_⟩
  obtain ⟨S, hS, -⟩ := hrep.session hi
  exact (hnone S hS).elim

/-- `previous` is the second of the last packet, if the clock does not step back. -/
lemma Clock.previous_eq (hsorted : (ps.map Packet.ts).Pairwise (· ≤ ·)) :
    ∀ p ∈ ps.getLast?, (Clock.after ps).previous = p.sec := by
  induction ps using List.reverseRecOn with
  | nil => exact fun p hp => absurd hp (by simp)
  | append_singleton ps p ih =>
      intro q hq
      obtain rfl : p = q := by simpa using hq
      rw [List.map_append, List.pairwise_append] at hsorted
      obtain ⟨hps, -, hle⟩ := hsorted
      rw [Clock.after_concat]
      by_cases h0 : (Clock.after ps).previous = 0
      · exact congrArg Prod.fst (Clock.step_of_zero (p := p) h0)
      · rcases List.eq_nil_or_concat ps with rfl | ⟨qs, l, rfl⟩
        · exact absurd rfl h0
        · rw [List.concat_eq_append] at *
          have hlast := ih hps l (by simp)
          have hsec : l.sec ≤ p.sec :=
            Packet.sec_mono (hle l.ts (List.mem_map_of_mem (by simp)) p.ts (by simp))
          rcases hsec.lt_or_eq with hlt | heq
          · rw [← hlast] at hlt
            exact congrArg Prod.fst (Clock.step_of_lt h0 hlt)
          · have hstep := Clock.step_of_eq h0 (hlast.trans heq)
            exact (congrArg Prod.fst hstep).trans (hlast.trans heq)

/-- At the parser nothing is older than the timeout, if the packet is the first one of its second. -/
lemma Opened.since (h : Opened c p s) (hsorted : (c.times ++ [p.ts]).Pairwise (· ≤ ·))
    (hfirst : c.previous = 0 ∨ c.previous < p.sec) : Since p.ts s := by
  rw [← Clock.step_times] at hsorted
  have hmem : (c.step p).now ∈ (c.step p).times := by
    rw [Clock.step_now, Clock.step_times]
    simp
  by_cases h0 : c.previous = 0
  · obtain ⟨g, a, hrep, hclock, hnaux, hflags, hK⟩ := h.1
    rw [← Clock.step_now c p]
    exact Tidy.since ⟨g, a, hrep, hclock, hnaux, hflags, fun S hS => hK S hS h0⟩ hmem
  · have hinit : (c.stamp p).init = c.stamp p :=
      if_neg fun hz => h0 ((c.stamp_previous p).symm.trans hz)
    have hlt : (c.stamp p).init.previous < (c.stamp p).init.current := by
      rw [hinit, Clock.stamp_previous]
      exact hfirst.resolve_left h0
    have hsince := (h.2 hlt).since hsorted hmem
    rwa [Clock.step_now] at hsince

/-- The first packet of a second, or one after others of that second. -/
lemma firstOfSecond_concat (hsorted : ((ps ++ [p]).map Packet.ts).Pairwise (· ≤ ·)) :
    ∃ q, firstOfSecond (ps ++ [p]) = some q
      ∧ (firstOfSecond ps = some q ∨ (q = p ∧ ∀ l ∈ ps, l.sec < p.sec)) := by
  rw [List.map_append, List.pairwise_append] at hsorted
  obtain ⟨hps, -, hle⟩ := hsorted
  have hsec : ∀ l ∈ ps, l.sec ≤ p.sec := fun l hl =>
    Packet.sec_mono (hle l.ts (List.mem_map_of_mem hl) p.ts (by simp))
  have hconcat : firstOfSecond (ps ++ [p])
      = (ps.find? (·.sec = p.sec)).or (some p) := by
    rw [firstOfSecond, List.getLast?_concat, Option.bind_some, List.find?_append]
    simp
  cases hfind : ps.find? (·.sec = p.sec) with
  | none =>
      refine ⟨p, by rw [hconcat, hfind]; rfl, .inr ⟨rfl, fun l hl => ?_⟩⟩
      refine lt_of_le_of_ne (hsec l hl) ?_
      simpa using List.find?_eq_none.mp hfind l hl
  | some q =>
      refine ⟨q, by rw [hconcat, hfind]; rfl, .inl ?_⟩
      have hq := List.mem_of_find?_eq_some hfind
      have hqsec : q.sec = p.sec := by simpa using List.find?_some hfind
      rcases List.eq_nil_or_concat ps with rfl | ⟨qs, l, rfl⟩
      · exact absurd hq List.not_mem_nil
      · rw [List.concat_eq_append] at *
        -- the packets from `q` on are of the same second
        have hql : q.sec ≤ l.sec := by
          rcases List.mem_append.mp hq with hqs | hql
          · rw [List.map_append, List.pairwise_append] at hps
            exact Packet.sec_mono (hps.2.2 q.ts (List.mem_map_of_mem hqs) l.ts (by simp))
          · rw [List.mem_singleton.mp hql]
        rw [hqsec] at hql
        have hl : l.sec = p.sec := le_antisymm (hsec l (by simp)) hql
        rw [firstOfSecond, List.getLast?_concat, Option.bind_some, hl]
        exact hfind

/-- **One packet more.** -/
lemma guarantees_since (hsorted : ((ps ++ [p]).map Packet.ts).Pairwise (· ≤ ·))
    (h : Idle (Clock.after ps) s) (hsince : ∀ q ∈ firstOfSecond ps, Since q.ts s) :
    Guarantees ExportStep (Sound (Clock.after (ps ++ [p]))) Effects
      (fun _ s => ∀ q ∈ firstOfSecond (ps ++ [p]), Since q.ts s) (processPacket p) s := by
  have htimes : (Clock.after (ps ++ [p])).times.Pairwise (· ≤ ·) := by
    rwa [Clock.after_times]
  have hps : (ps.map Packet.ts).Pairwise (· ≤ ·) := by
    rw [List.map_append] at hsorted
    exact (List.pairwise_append.mp hsorted).1
  obtain ⟨q, hq, hcases⟩ := firstOfSecond_concat hsorted
  rw [Clock.after_concat] at *
  have hgoal : ∀ (_ : Unit) s, Since q.ts s → ∀ r ∈ firstOfSecond (ps ++ [p]), Since r.ts s := by
    intro _ s hs r hr
    rw [hq, Option.mem_some_iff] at hr
    exact hr ▸ hs
  rcases hcases with hsame | ⟨rfl, hnew⟩
  · exact ((hsince q hsame).keeps htimes (guarantees_processPacket (.refl _) h)).imp
      (fun _ _ he => he) fun x s hs => hgoal x s hs.2
  · have hinits : 1 ≤ ((Clock.after ps).step q).inits := by
      rw [Clock.step_inits]
      exact h.started q
    have hfirst : (Clock.after ps).previous = 0 ∨ (Clock.after ps).previous < q.sec := by
      rcases List.eq_nil_or_concat ps with rfl | ⟨qs, l, rfl⟩
      · exact .inl rfl
      · rw [List.concat_eq_append] at *
        rw [Clock.previous_eq hps l (by simp)]
        exact .inr (hnew l (by simp))
    rw [processPacket_eq]
    refine .bind ((guarantees_keepTime (.refl _) h).imp (fun _ _ hs => ⟨0, .still hs⟩)
      fun _ _ hs => hs) fun _ s hs => ?_
    have hq : Since q.ts s := hs.since (by rwa [← Clock.step_times]) hfirst
    exact (hq.keeps htimes (guarantees_parseFrame (.refl _) (Clock.step_now _ q).symm
      (Clock.step_last _ q) hinits hs.1.idle)).imp (fun _ _ he => he) fun x s hs => hgoal x s hs.2

/-- What is known in each phase of a run. -/
def SinceInPhase (ps : List Packet) (s : State) : Phase → Prop
  | .idle => ∀ q ∈ firstOfSecond ps, Since q.ts s
  | .busy rest => Safe ExportStep (Sound (Clock.after ps))
      (fun _ s => ∀ q ∈ firstOfSecond ps, Since q.ts s) rest s
  | _ => True

lemma Run.sinceInPhase {f : Phase} (h : Run ps s f)
    (hsorted : (ps.map Packet.ts).Pairwise (· ≤ ·)) : SinceInPhase ps s f := by
  induction h with
  | start => exact fun q hq => absurd hq (by simp [firstOfSecond])
  | @packet ps s p h ih =>
      have hps : (ps.map Packet.ts).Pairwise (· ≤ ·) := by
        rw [List.map_append] at hsorted
        exact (List.pairwise_append.mp hsorted).1
      exact (guarantees_since hsorted h.inPhase (ih hps)).safe
  | busy _ ih => exact (ih hsorted).sec_step
  | back _ ih => exact (ih hsorted).result
  | shutdown _ _ => trivial
  | closing _ _ => trivial
  | close _ _ => trivial
  | @«export» ps s s' f h hs ih =>
      cases f with
      | idle =>
          have htimes : (Clock.after ps).times.Pairwise (· ≤ ·) := by rwa [Clock.after_times]
          have hsound : ∀ s, Idle (Clock.after ps) s → Sound (Clock.after ps) s := At.sound (.refl _)
          exact fun q hq => (ih hsorted q hq).exportStep htimes (hsound s h.inPhase) hs
      | busy rest => exact (ih hsorted).env_step hs
      | closing rest => trivial
      | closed => trivial

end Since

/-- **The walk that stops early expires exactly the right set.**  With packets in the order of time,
`cleanup_flows` removes the sessions a scan of the whole table would select and appends them to the
expired flows, of which the export thread may take some from the front in the meantime; alone it appends
them and nothing else happens to that list.  This holds where it is called, and would hold between any
two packets.  Between two packets no session in the table is older than the timeout was for the first
packet of the second. -/
theorem cleanup_exact {ps : List Packet} (hsorted : (ps.map Packet.ts).Pairwise (· ≤ ·)) :
    (∀ s, Cleans ps s ∨ Run ps s .idle →
      (∀ s', Ends ExportStep cleanupFlows s () s' → Cleaned s s'
        ∧ s'.expiredFlowList <:+ s.expiredFlowList ++ s.expiredNodes.reverse)
      ∧ Cleaned s (cleanupFlows.run s).1
      ∧ (cleanupFlows.run s).1.expiredFlowList = s.expiredFlowList ++ s.expiredNodes.reverse)
    ∧ ∀ s, Run ps s .idle → ∀ q ∈ firstOfSecond ps, FreshSince q.ts s := by
  refine ⟨fun s hs => ?_, fun s h q hq => (h.sinceInPhase hsorted q hq).2⟩
  obtain ⟨c, hidle, hsteady⟩ : ∃ c, Idle c s ∧ c.times.Pairwise (· ≤ ·) :=
    hs.elim (fun h => h.idle_sorted hsorted) (fun h => h.idle_sorted hsorted)
  obtain ⟨hcleaned, heq⟩ := hidle.cleaned hsteady beside_nothing (Ends.run _ cleanupFlows s)
  exact ⟨fun s' hends => hidle.cleaned hsteady beside_export hends, hcleaned, heq.symm⟩

/-- Of two flows one has expired when the third packet comes. -/
theorem cleanup_exact_third :
    let s := ((untilCleanup (datagram 3 97 0)).run (monitor [datagram 1 5 0, datagram 2 10 0])).1
    s.activeFlowList.length = 2 ∧ s.expiredNodes.length = 1 ∧ Cleaned s (cleanupFlows.run s).1
      ∧ FreshSince (datagram 3 97 0).ts
        (monitor [datagram 1 5 0, datagram 2 10 0, datagram 3 97 0]) := by
  have hsorted : ([datagram 1 5 0, datagram 2 10 0, datagram 3 97 0].map Packet.ts).Pairwise
      (· ≤ ·) := by decide +kernel
  have hfirst : firstOfSecond [datagram 1 5 0, datagram 2 10 0, datagram 3 97 0]
      = some (datagram 3 97 0) := by
    have h1 : ¬ (datagram 1 5 0).sec = (datagram 3 97 0).sec := by decide +kernel
    have h2 : ¬ (datagram 2 10 0).sec = (datagram 3 97 0).sec := by decide +kernel
    simp [firstOfSecond, h1, h2]
  have hret : ((untilCleanup (datagram 3 97 0)).run (monitor [datagram 1 5 0, datagram 2 10 0])).2
      = true := by decide +kernel
  have hends := Ends.run ExportStep (untilCleanup (datagram 3 97 0))
    (monitor [datagram 1 5 0, datagram 2 10 0])
  rw [hret] at hends
  obtain ⟨hcalls, hfresh⟩ := cleanup_exact hsorted
  have hcleans := Cleans.second (run_monitor [datagram 1 5 0, datagram 2 10 0]) hends
  exact ⟨by decide +kernel, by decide +kernel, (hcalls _ (.inl hcleans)).2.1,
    hfresh _ (run_monitor _) _ hfirst⟩

end Flow
