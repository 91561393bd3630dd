import XdpFlows.Flow.Expiry

/-!
# From the process thread to the export thread

The two threads meet at the expired list: the process thread puts flows behind the others, the export
thread takes the first one.  Whatever the process thread does, it leaves the export thread, what that
has exported and the flows that wait for it as they are (`Supplies`); so the records exported followed
by those that are due only ever get longer (`Run.stream`).

* `waiting_flows_are_exported`: a flow in the expired list is exported after at most four steps of the
  export thread for each flow before it, and one more.
-/

namespace Flow

open SessionWindow Sections

/-! ## What the process thread leaves alone -/

/-- The process thread leaves the export thread alone and the flows that wait for it where they are,
unless it calls `initData`; and it counts the sessions it takes. -/
structure Supplies (s s' : State) : Prop where
  exporter : s'.exporter = s.exporter
  exported : s'.exported = s.exported
  stopEt : s'.stopEt = s.stopEt
  inits : s.inits ≤ s'.inits
  expired : s.expiredFlowList <+: s'.expiredFlowList ∨ s.inits < s'.inits
  nodeData : ∀ n i, n ∉ s.nodelPool.free → s.nodeData n = .session i → s'.nodeData n = .session i
  sessions : (s'.usedSession = s.usedSession
      ∧ s'.ipSessionPool.freeCount = s.ipSessionPool.freeCount)
    ∨ (s'.usedSession = s.usedSession + 1
      ∧ s'.ipSessionPool.freeCount = s.ipSessionPool.freeCount - 1)

section Supplies

variable {s s' : State} {i : SessionId}

/-- Some events were logged, but nothing was exported. -/
lemma Supplies.of_logged (hexporter : s'.exporter = s.exporter) (hstop : s'.stopEt = s.stopEt)
    (hexpired : s.expiredFlowList <+: s'.expiredFlowList)
    (hdata : ∀ n i, n ∉ s.nodelPool.free → s.nodeData n = .session i → s'.nodeData n = .session i)
    (hsession : s'.usedSession = s.usedSession ∧ s'.ipSessionPool = s.ipSessionPool)
    {l : List Event} (htrace : s'.trace = s.trace ++ l) (hl : l.filterMap Event.exported? = []) :
    Supplies s s' := by
  refine ⟨hexporter, ?_, hstop, ?_, Or.inl hexpired, hdata,
    Or.inl ⟨hsession.1, congrArg Pool.freeCount hsession.2⟩⟩
  · rw [State.exported, State.exported, htrace, List.filterMap_append, hl, List.append_nil]
  · rw [State.inits, State.inits, htrace, List.countP_append]
    exact Nat.le_add_right ..

/-- Nothing was logged, and no node was written to. -/
lemma Supplies.of_silent (hexporter : s'.exporter = s.exporter) (hstop : s'.stopEt = s.stopEt)
    (hexpired : s'.expiredFlowList = s.expiredFlowList) (hdata : s'.nodeData = s.nodeData)
    (hsession : s'.usedSession = s.usedSession ∧ s'.ipSessionPool = s.ipSessionPool)
    (htrace : s'.trace = s.trace) : Supplies s s' := by
  refine .of_logged hexporter hstop (hexpired ▸ List.prefix_refl _) (fun n i _ h => ?_) hsession
    (htrace.trans (List.append_nil _).symm) rfl
  rw [hdata, h]

lemma Supplies.refl (s : State) : Supplies s s :=
  .of_silent rfl rfl rfl rfl ⟨rfl, rfl⟩ rfl

/-! ### The clock -/

lemma stamped_supplies (t u : UInt64) (p : Packet) (s : State) :
    Supplies s ({ s with lastPacketTimestamp := t, current := u }.log (.received p)) :=
  .of_logged rfl rfl (List.prefix_refl _) (fun _ _ _ h => h) ⟨rfl, rfl⟩ rfl rfl

lemma stampClock_supplies (p : Packet) (s : State) : Supplies s (stampClock p s) :=
  stamped_supplies p.ts p.sec p s

lemma firstPacket_supplies (s : State) : Supplies s (firstPacket s).1 := by
  unfold firstPacket
  simp only
  split_ifs
  · have hinits : (initData s).inits = s.inits + 1 := inits_log _ _
    have hexported : (initData s).exported = s.exported :=
      (exported_log _ _).trans (List.append_nil _)
    exact ⟨rfl, hexported, rfl, by omega, Or.inr (by omega), fun _ _ _ h => h, Or.inl ⟨rfl, rfl⟩⟩
  · exact .refl s

lemma countSeconds_supplies (s : State) : Supplies s (countSeconds s) := by
  unfold countSeconds
  simp only
  split_ifs
  · exact .of_logged rfl rfl (List.prefix_refl _) (fun _ _ _ h => h) ⟨rfl, rfl⟩ rfl rfl
  · exact .of_silent rfl rfl rfl rfl ⟨rfl, rfl⟩ rfl

lemma sameSecond_supplies (s : State) : Supplies s (sameSecond s) := by
  unfold sameSecond
  split_ifs
  · exact .of_silent rfl rfl rfl rfl ⟨rfl, rfl⟩ rfl
  · exact .of_silent rfl rfl rfl rfl ⟨rfl, rfl⟩ rfl
  · exact .refl s

/-! ### The clean-up -/

/-- The node that is written to did not point to a session. -/
lemma unlinkSession_supplied {n b : NodeId} (hn : s.nodeData n = .node b) (i : SessionId) :
    (unlinkSession s n b i).exporter = s.exporter ∧ (unlinkSession s n b i).stopEt = s.stopEt
      ∧ (unlinkSession s n b i).expiredFlowList = s.expiredFlowList
      ∧ ((unlinkSession s n b i).usedSession = s.usedSession
        ∧ (unlinkSession s n b i).ipSessionPool = s.ipSessionPool)
      ∧ (unlinkSession s n b i).trace = s.trace
      ∧ ∀ m j, s.nodeData m = .session j → (unlinkSession s n b i).nodeData m = .session j := by
  have hdata : ∀ m j, s.nodeData m = .session j →
      Function.update s.nodeData n (s.nodeData b) m = .session j := by
    intro m j hm
    have hne : m ≠ n := by
      rintro rfl
      rw [hn] at hm
      exact absurd hm (by simp)
    rw [Function.update_of_ne hne, hm]
  simp only [unlinkSession, releaseNodel]
  split
  · exact ⟨rfl, rfl, rfl, ⟨rfl, rfl⟩, rfl, hdata⟩
  · exact ⟨rfl, rfl, rfl, ⟨rfl, rfl⟩, rfl, hdata⟩

lemma cleanupStep_supplies (n : NodeId) (s : State) : Supplies s (cleanupStep n s).1 := by
  have hcrash : Supplies s s.crash := .of_silent rfl rfl rfl rfl ⟨rfl, rfl⟩ rfl
  unfold cleanupStep
  split
  · rename_i b hn
    split
    · exact hcrash
    · rename_i i _
      simp only
      split_ifs
      · obtain ⟨hexporter, hstop, hexpired, hsession, htrace, hdata⟩ := unlinkSession_supplied
          (s := s.log (.tested (s.ips i).lastpacketTimestamp s.lastPacketTimestamp)) hn i
        exact .of_logged hexporter hstop (hexpired ▸ List.prefix_refl _) (fun m j _ h => hdata m j h)
          hsession ((congrArg (· ++ [Event.expired i _ _]) htrace).trans (List.append_assoc ..)) rfl
      · exact .of_logged rfl rfl (List.prefix_refl _) (fun _ _ _ h => h) ⟨rfl, rfl⟩ rfl rfl
  · exact hcrash

lemma flagsStep_supplies (n : NodeId) (s : State) : Supplies s (flagsStep n s).1 := by
  have hcrash : Supplies s s.crash := .of_silent rfl rfl rfl rfl ⟨rfl, rfl⟩ rfl
  unfold flagsStep
  split
  · rename_i b hn
    split
    · exact hcrash
    · rename_i i _
      obtain ⟨hexporter, hstop, hexpired, hsession, htrace, hdata⟩ := unlinkSession_supplied hn i
      exact .of_logged hexporter hstop (hexpired ▸ List.prefix_refl _) (fun m j _ h => hdata m j h)
        hsession (htrace.trans (List.append_nil _).symm) rfl
  · exact hcrash

lemma cleanupLoop_supplies (fuel : ℕ) (n : Option NodeId) :
    (cleanupLoop fuel n).Each Supplies := by
  induction fuel generalizing n with
  | zero =>
      cases n with
      | none => trivial
      | some n => exact .act fun _ => .of_silent rfl rfl rfl rfl ⟨rfl, rfl⟩ rfl
  | succ fuel ih =>
      cases n with
      | none => trivial
      | some n => exact .bind (.atomic (cleanupStep_supplies n)) ih

lemma flagsLoop_supplies (fuel : ℕ) (n : Option NodeId) : (flagsLoop fuel n).Each Supplies := by
  induction fuel generalizing n with
  | zero =>
      cases n with
      | none => trivial
      | some n => exact .act fun _ => .of_silent rfl rfl rfl rfl ⟨rfl, rfl⟩ rfl
  | succ fuel ih =>
      cases n with
      | none => trivial
      | some n => exact .bind (.atomic (flagsStep_supplies n)) ih

lemma cleanupFlows_supplies : cleanupFlows.Each Supplies := by
  refine .bind (.atomic fun s => .refl s) fun x => ?_
  refine .bind (cleanupLoop_supplies _ _) fun _ => ?_
  refine .bind (flagsLoop_supplies _ _) fun _ => .act fun s => ?_
  exact .of_logged rfl rfl (List.prefix_append _ _) (fun _ _ _ h => h) ⟨rfl, rfl⟩
    (List.append_nil _).symm rfl

/-! ### The parser and the insertion -/

/-- What taking an element can come to, whatever the state of the pool. -/
lemma Pool.get_cases (p : Pool) :
    p.get = none ∨ p.get = some (p, none) ∨ ∃ x y rest, p.free = x :: y :: rest
      ∧ p.get = some (⟨y :: rest, p.used ++ [x], p.freeCount - 1⟩, some x) := by
  unfold Pool.get
  split
  · exact Or.inl rfl
  · exact Or.inr (Or.inl rfl)
  · rename_i x y rest hfree
    exact Or.inr (Or.inr ⟨x, y, rest, hfree, rfl⟩)

lemma acquireSession_supplies (s : State) : Supplies s (acquireSession s).1 := by
  rcases Option.eq_none_or_eq_some s.auxSession with haux | ⟨i, haux⟩
  · rw [acquireSession_of_none haux]
    rcases s.ipSessionPool.get_cases with hget | hget | ⟨x, y, rest, -, hget⟩
    · rw [hget]
      exact .of_silent rfl rfl rfl rfl ⟨rfl, rfl⟩ rfl
    · rw [hget]
      exact .of_logged rfl rfl (List.prefix_refl _) (fun _ _ _ h => h) ⟨rfl, rfl⟩ rfl rfl
    · rw [hget]
      exact ⟨rfl, rfl, rfl, le_refl _, Or.inl (List.prefix_refl _), fun _ _ _ h => h,
        Or.inr ⟨rfl, rfl⟩⟩
  · rw [acquireSession_of_some haux]
    exact .of_silent rfl rfl rfl rfl ⟨rfl, rfl⟩ rfl

lemma parseInto_supplies (p : Packet) (i : SessionId) (s : State) :
    Supplies s (parseInto p i s).1 := by
  unfold parseInto
  simp only
  split
  · exact .of_silent rfl rfl rfl rfl ⟨rfl, rfl⟩ rfl
  · exact .of_silent rfl rfl rfl rfl ⟨rfl, rfl⟩ rfl
  · exact .of_logged rfl rfl (List.prefix_refl _) (fun _ _ _ h => h) ⟨rfl, rfl⟩ rfl rfl

lemma updateFlowTable_supplied (s : State) (j : SessionId) (newFlow : IPFlow) :
    (updateFlowTable s j newFlow).exporter = s.exporter
      ∧ (updateFlowTable s j newFlow).stopEt = s.stopEt
      ∧ (updateFlowTable s j newFlow).expiredFlowList = s.expiredFlowList
      ∧ (updateFlowTable s j newFlow).nodeData = s.nodeData
      ∧ ((updateFlowTable s j newFlow).usedSession = s.usedSession
        ∧ (updateFlowTable s j newFlow).ipSessionPool = s.ipSessionPool)
      ∧ (updateFlowTable s j newFlow).trace = s.trace := by
  unfold updateFlowTable
  simp only
  split
  · exact ⟨rfl, rfl, rfl, rfl, ⟨rfl, rfl⟩, rfl⟩
  · exact ⟨rfl, rfl, rfl, rfl, ⟨rfl, rfl⟩, rfl⟩

lemma insertFlowLookup_supplies (i : SessionId) (s : State) :
    Supplies s (insertFlowLookup i s).1 := by
  unfold insertFlowLookup
  simp only
  split
  · exact .refl s
  · split
    · exact .of_silent rfl rfl rfl rfl ⟨rfl, rfl⟩ rfl
    · rename_i j _
      split_ifs
      · exact .of_logged rfl rfl (List.prefix_refl _) (fun _ _ _ h => h) ⟨rfl, rfl⟩ rfl rfl
      · obtain ⟨hexporter, hstop, hexpired, hdata, hsession, htrace⟩ := updateFlowTable_supplied
          (s.log (.tested (s.ips j).lastpacketTimestamp s.lastPacketTimestamp)) j (s.ips i).incoming
        exact .of_logged hexporter hstop (hexpired ▸ List.prefix_refl _)
          (fun n k _ h => (congrFun hdata n).trans h) hsession
          ((congrArg (· ++ [Event.merged j]) htrace).trans (List.append_assoc ..)) rfl

/-- A node is taken from the free ones, or there is none. -/
lemma getNodel_cases (s : State) :
    (∃ e, getNodel s = (s.log (.error e), -1)) ∨ getNodel s = (s.crash, -1)
      ∨ ∃ p n, n ∈ s.nodelPool.free
        ∧ getNodel s = ({ s with nodelPool := p, nodelAux := n }, 0) := by
  unfold getNodel
  rcases s.nodelPool.get_cases with hget | hget | ⟨x, y, rest, hfree, hget⟩
  · rw [hget]
    exact Or.inr (Or.inl rfl)
  · rw [hget]
    exact Or.inl ⟨_, rfl⟩
  · rw [hget]
    exact Or.inr (Or.inr ⟨_, x, by rw [hfree]; exact List.mem_cons_self .., rfl⟩)

lemma insertFlowTableFirst_supplies (i : SessionId) (s : State) :
    Supplies s (insertFlowTableFirst i s).1 := by
  unfold insertFlowTableFirst
  simp only
  set t := s.setSession i { s.ips i with
    lastpacketTimestamp := s.lastPacketTimestamp
    firstpacketTimestamp := s.lastPacketTimestamp
    currentFlow := some i } with ht
  rcases getNodel_cases t with ⟨e, hget⟩ | hget | ⟨p, n, hn, hget⟩
  · rw [hget]
    exact .of_logged rfl rfl (List.prefix_refl _) (fun _ _ _ h => h) ⟨rfl, rfl⟩ rfl rfl
  · rw [hget]
    exact .of_silent rfl rfl rfl rfl ⟨rfl, rfl⟩ rfl
  · rw [hget]
    refine .of_logged rfl rfl (List.prefix_refl _) (fun m j hm h => ?_) ⟨rfl, rfl⟩
      (List.append_nil _).symm rfl
    have hne : m ≠ n := fun heq => hm (heq ▸ hn)
    exact (Function.update_of_ne hne ..).trans h

lemma insertFlowTableSecond_supplies (i : SessionId) (index : ℕ) (s : State) :
    Supplies s (insertFlowTableSecond i index s).1 := by
  unfold insertFlowTableSecond
  rcases getNodel_cases s with ⟨e, hget⟩ | hget | ⟨p, n, hn, hget⟩
  · rw [hget]
    exact .of_logged rfl rfl (List.prefix_refl _) (fun _ _ _ h => h) ⟨rfl, rfl⟩ rfl rfl
  · rw [hget]
    exact .of_silent rfl rfl rfl rfl ⟨rfl, rfl⟩ rfl
  · rw [hget]
    simp only
    split
    · exact .of_silent rfl rfl rfl rfl ⟨rfl, rfl⟩ rfl
    · split
      · exact .of_silent rfl rfl rfl rfl ⟨rfl, rfl⟩ rfl
      · refine .of_logged rfl rfl (List.prefix_refl _) (fun m j hm h => ?_) ⟨rfl, rfl⟩ rfl rfl
        have hne : m ≠ n := fun heq => hm (heq ▸ hn)
        exact (Function.update_of_ne hne ..).trans h

lemma insertFlowTableUndo_supplies (s : State) : Supplies s (insertFlowTableUndo s) := by
  unfold insertFlowTableUndo releaseNodel
  split
  · exact .of_silent rfl rfl rfl rfl ⟨rfl, rfl⟩ rfl
  · split
    · exact .of_silent rfl rfl rfl rfl ⟨rfl, rfl⟩ rfl
    · exact .of_silent rfl rfl rfl rfl ⟨rfl, rfl⟩ rfl

lemma insertFlow_supplies (i : SessionId) : (insertFlow i).Each Supplies := by
  refine .bind (.atomic (insertFlowLookup_supplies i)) fun found => ?_
  cases found with
  | done => trivial
  | insert index =>
      refine .bind (.atomic (insertFlowTableFirst_supplies i)) fun ret => ?_
      split_ifs
      · trivial
      · refine .bind (.atomic (insertFlowTableSecond_supplies i index)) fun ret => ?_
        split_ifs
        · exact .act insertFlowTableUndo_supplies
        · trivial

lemma keepTime_supplies (p : Packet) : (keepTime p).Each Supplies := by
  refine .bind (.act (stampClock_supplies p)) fun _ => ?_
  refine .bind (.atomic firstPacket_supplies) fun second => ?_
  split_ifs
  · refine .bind (.act countSeconds_supplies) fun _ => ?_
    refine .bind cleanupFlows_supplies fun _ => .act fun _ => ?_
    exact .of_silent rfl rfl rfl rfl ⟨rfl, rfl⟩ rfl
  · exact .act sameSecond_supplies

lemma parseFrame_supplies (p : Packet) : (parseFrame p).Each Supplies := by
  unfold parseFrame
  split_ifs
  · refine .bind (.atomic acquireSession_supplies) fun found => ?_
    cases found with
    | none => trivial
    | some i =>
        refine .bind (.atomic (parseInto_supplies p i)) fun accepted => ?_
        split_ifs
        · exact insertFlow_supplies i
        · trivial
  · trivial

lemma processPacket_supplies (p : Packet) : (processPacket p).Each Supplies := by
  rw [processPacket_eq]
  exact .bind (keepTime_supplies p) fun _ => parseFrame_supplies p

lemma resetFlowTable_supplies : resetFlowTable.Each Supplies := by
  refine .bind (.act fun _ => ?_) fun _ => cleanupFlows_supplies
  exact .of_logged rfl rfl (List.prefix_refl _) (fun _ _ _ h => h) ⟨rfl, rfl⟩ rfl rfl

end Supplies

/-! ## The turns of the process thread -/

/-- A turn of a run that is not one of the export thread. -/
inductive ProcessTurn : Config → Config → Prop where
  | packet {ps : List Packet} {s : State} (p : Packet) :
      ProcessTurn ⟨ps, s, .idle⟩ ⟨ps ++ [p], s, .busy (processPacket p)⟩
  | busy {ps : List Packet} {s : State} {u : State → State} {k : State → Prog State Unit} :
      ProcessTurn ⟨ps, s, .busy (.sec u k)⟩ ⟨ps, u s, .busy (k s)⟩
  | back {ps : List Packet} {s : State} : ProcessTurn ⟨ps, s, .busy (.ret ())⟩ ⟨ps, s, .idle⟩
  | shutdown {ps : List Packet} {s : State} :
      ProcessTurn ⟨ps, s, .idle⟩ ⟨ps, s, .closing capturaSenial⟩
  | closing {ps : List Packet} {s : State} {u : State → State} {k : State → Prog State Unit} :
      ProcessTurn ⟨ps, s, .closing (.sec u k)⟩ ⟨ps, u s, .closing (k s)⟩
  | close {ps : List Packet} {s : State} : ProcessTurn ⟨ps, s, .closing (.ret ())⟩ ⟨ps, s, .closed⟩

lemma ProcessTurn.turn {x y : Config} (h : ProcessTurn x y) : Turn x y := by
  cases h with
  | packet p => exact .packet p
  | busy => exact .busy
  | back => exact .back
  | shutdown => exact .shutdown
  | closing => exact .closing
  | close => exact .close

/-- `stop_et = 1`. -/
def halt (s : State) : State :=
  { s with stopEt := true }

/-- What is left of `process_packet` supplies; what is left of the shutdown does so until it stops the
export thread, after which it is over. -/
def Supplying (stopped : Bool) : Phase → Prop
  | .idle => stopped = false
  | .busy rest => stopped = false ∧ rest.Each Supplies
  | .closing rest => (∃ q : Prog State Unit, stopped = false ∧ q.Each Supplies
      ∧ rest = q >>= fun _ => Prog.act halt) ∨ rest = .ret ()
  | .closed => True

section Turns

variable {ps : List Packet} {s s' : State} {f : Phase} {x y : Config}

/-- **A turn of the process thread**, of which stopping the export thread is the last one. -/
lemma Supplying.turn (h : Supplying x.state.stopEt x.phase) (hturn : ProcessTurn x y) :
    Supplying y.state.stopEt y.phase
      ∧ (Supplies x.state y.state
        ∨ (x.state.stopEt = false ∧ y.state = halt x.state ∧ y.phase = .closing (.ret ()))) := by
  cases hturn with
  | packet p => exact ⟨⟨h, processPacket_supplies p⟩, Or.inl (.refl _)⟩
  | @busy ps s u k =>
      obtain ⟨hstop, hnow, hrest⟩ := h
      exact ⟨⟨(hnow s).stopEt.trans hstop, hrest s⟩, Or.inl (hnow s)⟩
  | back => exact ⟨h.1, Or.inl (.refl _)⟩
  | shutdown => exact ⟨Or.inl ⟨resetFlowTable, h, resetFlowTable_supplies, rfl⟩, Or.inl (.refl _)⟩
  | @closing ps s u k =>
      rcases h with ⟨q, hstop, hq, heq⟩ | heq
      · cases q with
        | ret a =>
            injection heq with hu hk
            subst hu hk
            exact ⟨Or.inr rfl, Or.inr ⟨hstop, rfl, rfl⟩⟩
        | sec v l =>
            injection heq with hu hk
            subst hu hk
            exact ⟨Or.inl ⟨l s, (hq.1 s).stopEt.trans hstop, hq.2 s, rfl⟩, Or.inl (hq.1 s)⟩
      · exact absurd heq (by simp)
  | close => exact ⟨trivial, Or.inl (.refl _)⟩

lemma exportStep_stopEt (h : Run ps s f) : (exportStep s).stopEt = s.stopEt := by
  obtain ⟨⟨g, a, pend, hrep⟩, -⟩ := h.sound
  obtain ⟨g', -, hframe⟩ := hrep.exportStep
  exact hframe.stopEt

lemma Run.supplying (h : Run ps s f) : Supplying s.stopEt f := by
  induction h with
  | start => rfl
  | @packet ps s p _ ih => exact (ih.turn (x := ⟨ps, s, _⟩) (.packet p)).1
  | @busy ps s u k _ ih => exact (ih.turn (x := ⟨ps, s, _⟩) .busy).1
  | @back ps s _ ih => exact (ih.turn (x := ⟨ps, s, _⟩) .back).1
  | @shutdown ps s _ ih => exact (ih.turn (x := ⟨ps, s, _⟩) .shutdown).1
  | @closing ps s u k _ ih => exact (ih.turn (x := ⟨ps, s, _⟩) .closing).1
  | close _ _ => trivial
  | «export» h hs ih =>
      rw [hs, exportStep_stopEt h]
      exact ih

/-- After it has stopped the export thread the process thread changes nothing. -/
lemma Run.rests (h : Run x.packets x.state x.phase) (hturn : ProcessTurn x y)
    (hstop : x.state.stopEt = true) : y.state = x.state := by
  have hsupply := h.supplying
  cases hturn with
  | packet _ => rfl
  | busy => exact absurd (hstop.symm.trans hsupply.1) (by simp)
  | back => rfl
  | shutdown => rfl
  | closing =>
      rcases hsupply with ⟨q, hgoes, -⟩ | heq
      · exact absurd (hstop.symm.trans hgoes) (by simp)
      · exact absurd heq (by simp)
  | close => rfl

lemma Run.exporter (h : Run x.packets x.state x.phase) (hturn : ProcessTurn x y) :
    y.state.exporter = x.state.exporter := by
  rcases (h.supplying.turn hturn).2 with hs | ⟨-, heq, -⟩
  · exact hs.exporter
  · rw [heq]
    rfl

lemma Run.exported (h : Run x.packets x.state x.phase) (hturn : ProcessTurn x y) :
    y.state.exported = x.state.exported := by
  rcases (h.supplying.turn hturn).2 with hs | ⟨-, heq, -⟩
  · exact hs.exported
  · rw [heq]
    rfl

/-- The export thread ends with nothing left, and nothing is added after that. -/
lemma Run.drained (h : Run ps s f) : Drained s := by
  have hprocess : ∀ {x y : Config}, Run x.packets x.state x.phase → ProcessTurn x y →
      Drained x.state → Drained y.state := by
    intro x y hx hturn hdrained hfin
    obtain ⟨⟨g, a, pend, hrep⟩, -⟩ := hx.sound
    have hfin' : x.state.exporter = .finished := (hx.exporter hturn).symm.trans hfin
    have hstop : x.state.stopEt = true := hrep.owns.drains (by rw [hfin']; rfl)
    rw [hx.rests hturn hstop]
    exact hdrained hfin'
  induction h with
  | start => exact fun _ => rfl
  | @packet ps s p h ih => exact hprocess (x := ⟨ps, s, _⟩) h (.packet p) ih
  | @busy ps s u k h ih => exact hprocess (x := ⟨ps, s, _⟩) h .busy ih
  | @back ps s h ih => exact hprocess (x := ⟨ps, s, _⟩) h .back ih
  | @shutdown ps s h ih => exact hprocess (x := ⟨ps, s, _⟩) h .shutdown ih
  | @closing ps s u k h ih => exact hprocess (x := ⟨ps, s, _⟩) h .closing ih
  | @close ps s h ih => exact hprocess (x := ⟨ps, s, _⟩) h .close ih
  | «export» _ hs ih => exact stable_drained ih hs

end Turns

/-! ## The records on their way -/

/-- The nodes the export thread has taken or will take next.  A flow in `flags_expired_flow_list` is not
among them: it first waits for the process thread to splice that list to the end of the expired list. -/
def State.waiting (s : State) : List NodeId :=
  s.exporter.poppedNode ++ s.expiredFlowList

/-- The records of these flows it has not exported yet. -/
def State.due (s : State) : List FlowRecord :=
  s.waiting.filterMap s.recordAt

section Stream

variable {g : Layout} {a : Flows Packet UInt64} {pend : List Packet} {ps : List Packet}
  {s s' : State} {f : Phase} {x y : Config} {n : NodeId} {i : SessionId}

lemma recordAt_eq (h : s.nodeData n = .session i) : s.recordAt n = some (s.record i) := by
  rw [State.recordAt, sessionAt_eq h]
  rfl

/-- A node of a flow on its way is taken, and points to a session on its way. -/
lemma Owns.waiting_session (h : Owns g s) (hn : n ∈ s.leaving) :
    n ∉ s.nodelPool.free ∧ ∃ i, s.nodeData n = .session i ∧ s.Leaving i := by
  have hn' := hn
  rw [h.leaving_eq] at hn'
  obtain ⟨w, hw, rfl⟩ := List.mem_map.mp hn'
  refine ⟨fun hfree => ?_, w.2, h.left w hw, w.1, hn, h.left w hw⟩
  have hone := h.node_count w.1
  have hpos := h.count_gone_fst hw
  have hfree' := List.count_pos_iff.mpr hfree
  omega

/-- A flow on its way keeps its record. -/
lemma Effects.record_leaving (h : Effects s s') (hi : s.Leaving i) (hi' : s'.Leaving i) :
    s'.record i = s.record i := by
  obtain ⟨j, hstill | hmerge | hopen⟩ := h
  · exact hstill.record i (Or.inr hi) (Or.inr hi')
  · exact hmerge.others i (hmerge.leaving i hi').2
  · exact hopen.others i (hopen.leaving i hi').2

lemma recordAt_congr {l : List NodeId} (hl : ∀ n ∈ l, ∃ i, s.nodeData n = .session i
    ∧ s'.nodeData n = .session i ∧ s'.record i = s.record i) :
    l.filterMap s'.recordAt = l.filterMap s.recordAt := by
  refine List.filterMap_congr fun n hn => ?_
  obtain ⟨i, hdata, hdata', hrecord⟩ := hl n hn
  rw [recordAt_eq hdata, recordAt_eq hdata', hrecord]

/-- **A turn of the process thread** puts records behind those that are due. -/
lemma Run.due_process (h : Run x.packets x.state x.phase) (hturn : ProcessTurn x y)
    (hinits : y.state.inits = x.state.inits) : x.state.due <+: y.state.due := by
  rcases (h.supplying.turn hturn).2 with hs | ⟨-, heq, -⟩
  · obtain ⟨⟨g, a, pend, hrep⟩, -⟩ := h.sound
    have heffects : Effects x.state y.state := by
      rcases h.effects hturn.turn with hstill | ⟨heff, -⟩
      · exact ⟨0, .still hstill⟩
      · exact heff
    obtain ⟨more, hmore⟩ := hs.expired.resolve_right (by omega)
    have hwaiting : y.state.waiting = x.state.waiting ++ more := by
      rw [State.waiting, State.waiting, hs.exporter, List.append_assoc, hmore]
    have hkept : x.state.waiting.filterMap y.state.recordAt = x.state.due := by
      refine recordAt_congr fun n hn => ?_
      have hleaving : n ∈ x.state.leaving := List.mem_append_left _ hn
      obtain ⟨hfree, i, hdata, hi⟩ := hrep.owns.waiting_session hleaving
      have hdata' := hs.nodeData n i hfree hdata
      have hi' : y.state.Leaving i := by
        refine ⟨n, List.mem_append_left _ ?_, hdata'⟩
        show n ∈ y.state.waiting
        rw [hwaiting]
        exact List.mem_append_left _ hn
      exact ⟨i, hdata, hdata', heffects.record_leaving hi hi'⟩
    rw [State.due, State.due, hwaiting, List.filterMap_append, hkept]
    exact List.prefix_append _ _
  · rw [heq]
    exact List.prefix_refl _

/-- **A step of the export thread** takes the records that are due in their order. -/
lemma due_export (h : Rep g a pend s) :
    (exportStep s).exported ++ (exportStep s).due = s.exported ++ s.due := by
  obtain ⟨g', hrep', hframe⟩ := h.exportStep
  have hall : ∀ {g : Layout} {s : State}, Rep g a pend s →
      s.exported ++ s.due ++ s.flagsExpiredFlowList.filterMap s.recordAt = a.out.map recordOf := by
    intro g s h
    have hgone : s.leaving.filterMap s.recordAt = g.gone.map fun w => s.record w.2 := by
      rw [filterMap_recordAt, h.owns.leaving_eq, h.owns.sessionAt_gone (List.Subset.refl _),
        List.map_map]
      rfl
    rw [← h.shows.out, ← hgone, State.leaving, List.filterMap_append, ← List.append_assoc]
    rfl
  have hflags : (exportStep s).flagsExpiredFlowList.filterMap (exportStep s).recordAt
      = s.flagsExpiredFlowList.filterMap s.recordAt := by
    rw [hframe.flags]
    refine recordAt_congr fun n hn => ?_
    have hleaving : n ∈ s.leaving := List.mem_append_right _ hn
    obtain ⟨-, i, hdata, hi⟩ := h.owns.waiting_session hleaving
    have hdata' : (exportStep s).nodeData n = .session i := by rw [exportStep_nodeData, hdata]
    have hi' : (exportStep s).Leaving i := by
      refine ⟨n, List.mem_append_right _ ?_, hdata'⟩
      rw [hframe.flags]
      exact hn
    exact ⟨i, hdata, hdata', h.owns.exportStep_still.record i (Or.inr hi) (Or.inr hi')⟩
  have heq := (hall hrep').trans (hall h).symm
  rw [hflags] at heq
  exact List.append_cancel_right heq

lemma popExpired_exported (drain : Bool) (idle : ExportPc) (s : State) :
    (popExpired drain idle s).exported = s.exported := by
  unfold popExpired
  split
  · rfl
  · rfl

/-- It exports the flow it has popped. -/
lemma Owns.exportStep_exported (h : Owns g s) :
    (exportStep s).exported = s.exported ++ s.exporter.poppedNode.filterMap s.recordAt := by
  cases hpc : s.exporter with
  | loop =>
      rw [exportStep, hpc]
      simp only [ExportPc.poppedNode, List.filterMap_nil, List.append_nil]
      split_ifs
      · rfl
      · exact popExpired_exported ..
  | popped drain n =>
      have hn : n ∈ s.leaving := by simp [State.leaving, hpc, ExportPc.poppedNode]
      obtain ⟨-, i, hdata, -⟩ := h.waiting_session hn
      rw [exportStep, hpc]
      simp only [ExportPc.poppedNode, sessionAt_eq hdata, List.filterMap_cons, recordAt_eq hdata,
        List.filterMap_nil]
      refine (exported_log _ _).trans ?_
      simp only [Event.exported?, Option.toList_some, State.setSession_self]
      rfl
  | printed drain n i =>
      rw [exportStep, hpc]
      simp only [ExportPc.poppedNode, List.filterMap_nil, List.append_nil, releaseIPSession]
      split
      · rfl
      · rfl
  | released drain n =>
      rw [exportStep, hpc]
      simp only [ExportPc.poppedNode, List.filterMap_nil, List.append_nil, releaseNodel]
      split
      · rfl
      · rfl
  | draining =>
      rw [exportStep, hpc]
      simp only [ExportPc.poppedNode, List.filterMap_nil, List.append_nil]
      exact popExpired_exported ..
  | finished =>
      rw [exportStep, hpc]
      simp only [ExportPc.poppedNode, List.filterMap_nil, List.append_nil]

end Stream

/-! ## How long a flow waits -/

/-- From one configuration to another in `m` steps of the export thread, and turns of the process thread
that do not call `initData`. -/
inductive Goes : ℕ → Config → Config → Prop where
  | refl (x : Config) : Goes 0 x x
  | process {m : ℕ} {x y z : Config} (h : Goes m x y) (hturn : ProcessTurn y z)
      (hinits : z.state.inits = y.state.inits) : Goes m x z
  | export {m : ℕ} {x y : Config} (h : Goes m x y) :
      Goes (m + 1) x { y with state := exportStep y.state }

/-- The steps of the export thread since it exported a flow, at most.  It takes one more to see that it
has to stop. -/
def ExportPc.since : ExportPc → ℕ
  | .printed drain _ _ => drain.toNat
  | .released drain _ => 1 + drain.toNat
  | .loop => 2
  | .draining => 3
  | .popped drain _ => 3 + drain.toNat
  | .finished => 4

lemma ExportPc.since_le (pc : ExportPc) : pc.since ≤ 4 := by
  have htoNat : ∀ b : Bool, b.toNat ≤ 1 := Bool.toNat_le
  cases pc with
  | loop => decide
  | popped drain _ => exact Nat.add_le_add_left (htoNat drain) 3
  | printed drain _ _ => exact (htoNat drain).trans (by decide)
  | released drain _ => exact (Nat.add_le_add_left (htoNat drain) 1).trans (by decide)
  | draining => decide
  | finished => decide

/-- How far the export thread has come. -/
def State.pace (s : State) : ℕ :=
  4 * s.exported.length + s.exporter.since

lemma popExpired_cases (drain : Bool) (idle : ExportPc) (s : State) :
    (s.expiredFlowList = [] ∧ popExpired drain idle s = { s with exporter := idle })
      ∨ ∃ n rest, s.expiredFlowList = n :: rest ∧ popExpired drain idle s
        = { s with expiredFlowList := rest, exporter := .popped drain n } := by
  by_cases hexp : s.expiredFlowList = []
  · exact Or.inl ⟨hexp, popExpired_nil hexp ..⟩
  · obtain ⟨n, rest, hcons⟩ := List.exists_cons_of_ne_nil hexp
    exact Or.inr ⟨n, rest, hcons, popExpired_cons hcons ..⟩

section Waiting

variable {g : Layout} {s : State} {x y : Config} {m n : ℕ}

/-- **Every step of the export thread counts**, unless nothing is due. -/
lemma Owns.exportStep_pace (h : Owns g s) (hdrained : Drained s) :
    (exportStep s).due = [] ∨ s.pace + 1 ≤ (exportStep s).pace := by
  have hcount := congrArg List.length h.exportStep_exported
  rw [List.length_append] at hcount
  cases hpc : s.exporter with
  | loop =>
      have hstep : exportStep s
          = if s.stopEt then { s with exporter := .draining } else popExpired false .loop s := by
        rw [exportStep, hpc]
      simp only [hpc, ExportPc.poppedNode, List.filterMap_nil, List.length_nil] at hcount
      rw [State.pace, State.pace, hcount, hstep, hpc]
      split_ifs
      · right
        simp only [ExportPc.since]
        omega
      · rcases popExpired_cases false .loop s with ⟨hexp, heq⟩ | ⟨n, rest, -, heq⟩
        · left
          rw [heq]
          simp [State.due, State.waiting, hexp, ExportPc.poppedNode]
        · right
          rw [heq]
          simp only [ExportPc.since, Bool.toNat_false]
          omega
  | popped drain n =>
      have hn : n ∈ s.leaving := by simp [State.leaving, hpc, ExportPc.poppedNode]
      obtain ⟨-, i, hdata, -⟩ := h.waiting_session hn
      have hstep : (exportStep s).exporter = .printed drain n i := by
        rw [exportStep, hpc]
        simp only [sessionAt_eq hdata]
        rfl
      right
      simp only [hpc, ExportPc.poppedNode, List.filterMap_cons, recordAt_eq hdata, List.filterMap_nil,
        List.length_singleton] at hcount
      simp only [State.pace, hstep, hpc, ExportPc.since]
      omega
  | printed drain n i =>
      right
      have hstep : (exportStep s).exporter = .released drain n := by rw [exportStep, hpc]
      simp only [State.pace, hstep, hpc, ExportPc.since]
      omega
  | released drain n =>
      right
      have hstep : (exportStep s).exporter = if drain then .draining else .loop := by
        rw [exportStep, hpc]
      simp only [State.pace, hstep, hpc, ExportPc.since]
      cases drain
      · simp only [Bool.false_eq_true, if_false, Bool.toNat_false]
        omega
      · simp only [if_true, Bool.toNat_true]
        omega
  | draining =>
      have hstep : exportStep s = popExpired true .finished s := by
        rw [exportStep, hpc]
      simp only [hpc, ExportPc.poppedNode, List.filterMap_nil, List.length_nil] at hcount
      rw [State.pace, State.pace, hcount, hstep, hpc]
      rcases popExpired_cases true .finished s with ⟨hexp, heq⟩ | ⟨n, rest, -, heq⟩
      · left
        rw [heq]
        simp [State.due, State.waiting, hexp, ExportPc.poppedNode]
      · right
        rw [heq]
        simp only [ExportPc.since, Bool.toNat_true]
        omega
  | finished =>
      left
      rw [exportStep, hpc]
      simp [State.due, State.waiting, hdrained hpc, hpc, ExportPc.poppedNode]

lemma Goes.run (h : Goes m x y) (hx : Run x.packets x.state x.phase) :
    Run y.packets y.state y.phase := by
  induction h with
  | refl x => exact hx
  | process _ hturn _ ih => exact (ih hx).turn hturn.turn
  | «export» _ ih => exact (ih hx).export rfl

/-- What was exported or due is exported or due later on, in the same order. -/
lemma Goes.stream (h : Goes m x y) (hx : Run x.packets x.state x.phase) :
    x.state.exported <+: y.state.exported
      ∧ x.state.exported ++ x.state.due <+: y.state.exported ++ y.state.due := by
  induction h with
  | refl x => exact ⟨List.prefix_refl _, List.prefix_refl _⟩
  | process h hturn hinits ih =>
      have hy := h.run hx
      obtain ⟨hexported, hdue⟩ := ih hx
      rw [hy.exported hturn]
      refine ⟨hexported, hdue.trans ?_⟩
      exact (List.prefix_append_right_inj _).mpr (hy.due_process hturn hinits)
  | «export» h ih =>
      obtain ⟨⟨g, a, pend, hrep⟩, -⟩ := (h.run hx).sound
      obtain ⟨hexported, hdue⟩ := ih hx
      refine ⟨hexported.trans ?_, ?_⟩
      · rw [hrep.owns.exportStep_exported]
        exact List.prefix_append _ _
      · rw [due_export hrep]
        exact hdue

/-- All that was due at `x` is exported at `y`. -/
def AllServed (x y : Config) : Prop :=
  x.state.exported.length + x.state.due.length ≤ y.state.exported.length

lemma served_of_due_nil (hstream : x.state.exported ++ x.state.due <+: y.state.exported ++ y.state.due)
    (hdue : y.state.due = []) : AllServed x y := by
  have hle := hstream.length_le
  rw [hdue, List.append_nil, List.length_append] at hle
  exact hle

/-- **Four steps for each flow**, and one to see that it has to stop. -/
lemma Goes.paced (h : Goes m x y) (hx : Run x.packets x.state x.phase) :
    AllServed x y ∨ m + 4 * x.state.exported.length ≤ y.state.pace := by
  induction h with
  | refl x =>
      right
      rw [State.pace]
      omega
  | @process m x y z h hturn hinits ih =>
      have hy := h.run hx
      rw [AllServed, State.pace, hy.exported hturn, hy.exporter hturn]
      exact ih hx
  | @«export» m x y h ih =>
      obtain ⟨⟨g, a, pend, hrep⟩, -⟩ := (h.run hx).sound
      rcases (hrep.owns.exportStep_pace (h.run hx).drained) with hnil | hpace
      · exact Or.inl (served_of_due_nil (h.export.stream hx).2 hnil)
      · rcases ih hx with hserved | hle
        · refine Or.inl (le_trans hserved ?_)
          rw [hrep.owns.exportStep_exported, List.length_append]
          exact Nat.le_add_right ..
        · right
          refine le_trans ?_ hpace
          omega

/-- **A flow waits for at most four steps for each flow before it.**  However the threads are interleaved,
as long as `initData` does not empty the lists, after `4 * n + 1` steps of the export thread the first
`n` of the records that were due (in the expired list or popped from it) have been exported, in their
order and behind what had been exported before. -/
theorem waiting_flows_are_exported (hx : Run x.packets x.state x.phase) (h : Goes m x y)
    (hm : 4 * n + 1 ≤ m) : x.state.exported ++ x.state.due.take n <+: y.state.exported := by
  obtain ⟨hexported, hstream⟩ := h.stream hx
  have hsince := y.state.exporter.since_le
  have hlength : (x.state.exported ++ x.state.due.take n).length ≤ y.state.exported.length := by
    rw [List.length_append, List.length_take]
    rcases h.paced hx with hserved | hpaced
    · rw [AllServed] at hserved
      omega
    · rw [State.pace] at hpaced
      omega
  have htake : x.state.exported ++ x.state.due.take n <+: y.state.exported ++ y.state.due :=
    ((List.prefix_append_right_inj _).mpr (List.take_prefix _ _)).trans hstream
  exact List.prefix_of_prefix_length_le htake (List.prefix_append _ _) hlength

/-- Two flows have expired, and the export thread takes the first one out while a packet comes in. -/
theorem waiting_flows_are_exported_first :
    let ps := [datagram 1 5 0, datagram 2 5 0, datagram 3 200 0]
    ∃ y, Goes 5 ⟨ps, monitor ps, .idle⟩ y ∧ y.packets.length = 4 ∧ (monitor ps).due.length = 2
      ∧ (monitor ps).exported ++ (monitor ps).due.take 1 <+: y.state.exported := by
  intro ps
  have hrun : Run ps (monitor ps) .idle := run_monitor ps
  generalize hs : monitor ps = s at hrun ⊢
  have htwo : Goes 2 ⟨ps, s, .idle⟩ ⟨ps, _, .idle⟩ := .export (.export (.refl _))
  have hbusy := (htwo.process (.packet (datagram 4 201 0)) rfl).process .busy (inits_log _ _)
  have hfive := hbusy.export.export.export
  exact ⟨_, hfive, rfl, hs ▸ by decide +kernel, waiting_flows_are_exported hrun hfive (by decide)⟩

end Waiting

end Flow
