import XdpFlows.Flow.Intake

/-!
# Where the packets have gone

Every packet `process_packet` is called for comes to one end.  It is too short, it finds no session, the
parser passes it over, finds it malformed, or hands it to `insertFlow`.  `unprocessed_packets` and
`count_pckts_malformed` count two of these ends and the flows a third one, whatever the export thread
does meanwhile (`packets_accounted`).  That a packet has found no session is not just said: it is one
after which `getIPSession` has reported that the pool is empty (`Fate.events`).
-/

namespace Flow

open SessionWindow Sections

/-! ## What the parser says -/

lemma parseL4_verdict (p : Packet) (proto : UInt8) (flow flow' : IPFlow) (bp : ℕ)
    (ipLen ipHLen : UInt16) : (parseL4 p proto flow bp ipLen ipHLen).verdict
      = (parseL4 p proto flow' bp ipLen ipHLen).verdict := by
  unfold parseL4 processL4Flow
  simp only
  split_ifs <;> rfl

lemma parseLoop_verdict (p : Packet) (fuel : ℕ) (flow flow' : IPFlow) (bp : ℕ)
    (aux16 ipLen ipHLen : UInt16) : (parseLoop p fuel flow bp aux16 ipLen ipHLen).verdict
      = (parseLoop p fuel flow' bp aux16 ipLen ipHLen).verdict := by
  induction fuel generalizing flow flow' bp aux16 ipLen ipHLen with
  | zero => rfl
  | succ fuel ih =>
      unfold parseLoop
      simp only
      split_ifs
      · rfl
      · exact ih _ _ _ _ _ _
      · rfl
      · rfl
      · exact ih _ _ _ _ _ _
      · exact parseL4_verdict ..
      · exact parseL4_verdict ..
      · exact parseL4_verdict ..
      · rfl

/-- What was in the session before makes no difference to where the parser returns. -/
lemma parse_verdict (p : Packet) (flow : IPFlow) :
    (parse p flow).verdict = (parse p .zero).verdict :=
  parseLoop_verdict ..

/-! ## Fates -/

/-- The end a packet comes to. -/
inductive Fate where
  /-- `hcap->caplen < ETH_HLEN`. -/
  | short
  /-- `unprocessed_packets++`: `getIPSession` has returned NULL. -/
  | dropped
  /-- Where the parser returns. -/
  | parsed (v : Verdict)
deriving DecidableEq, Repr

/-- The fates a packet can have by what is in it.  Whether there is a session for it the trace says. -/
def Fits (p : Packet) : Fate → Prop
  | .short => p.caplen < 14
  | .dropped => 14 ≤ p.caplen
  | .parsed v => 14 ≤ p.caplen ∧ v = (parse p .zero).verdict

/-- A packet has come, `getIPSession` has returned NULL, or a packet is handed to `insertFlow`. -/
def Event.intake : Event → Bool
  | .received _ => true
  | .error text => text = "Pool de flujos vacío"
  | .reached _ => true
  | _ => false

def State.intake (s : State) : List Event :=
  s.trace.filter Event.intake

/-- What of this a packet leaves in the trace. -/
def Fate.events (p : Packet) : Fate → List Event
  | .dropped => [.received p, .error "Pool de flujos vacío"]
  | .parsed .accepted => [.received p, .reached p]
  | _ => [.received p]

/-- The counters and the trace are as the fates of the packets say; of the packet that is being processed
the trace shows `l`. -/
structure Recorded (fates : List (Packet × Fate)) (l : List Event) (s : State) : Prop where
  unprocessedPackets : s.unprocessedPackets = (fates.map Prod.snd).count .dropped
  countPcktsMalformed : s.countPcktsMalformed = (fates.map Prod.snd).count (.parsed .malformed)
  intake : s.intake = (fates.flatMap fun w => w.2.events w.1) ++ l

/-- Every one of the packets `ps` has had its fate. -/
def Accounted (ps : List Packet) (l : List Event) (s : State) : Prop :=
  s.ipSessionPool.free ≠ [] ∧ ∃ fates : List (Packet × Fate), fates.map Prod.fst = ps
    ∧ (∀ w ∈ fates, Fits w.1 w.2) ∧ Recorded fates l s

lemma intake_log (s : State) (e : Event) : (s.log e).intake = s.intake ++ [e].filter Event.intake :=
  List.filter_append ..

lemma reached_events (fates : List (Packet × Fate)) :
    (fates.flatMap fun w => w.2.events w.1).filterMap Event.reached?
      = (fates.filter fun w => w.2 = .parsed .accepted).map Prod.fst := by
  induction fates with
  | nil => rfl
  | cons w fates ih =>
      obtain ⟨p, fate⟩ := w
      rw [List.flatMap_cons, List.filterMap_append, ih]
      by_cases haccepted : fate = .parsed .accepted
      · subst haccepted
        rw [List.filter_cons_of_pos (by simp)]
        rfl
      · rw [List.filter_cons_of_neg (by simpa using haccepted)]
        cases fate with
        | short => rfl
        | dropped => rfl
        | parsed v =>
            cases v with
            | accepted => exact absurd rfl haccepted
            | _ => rfl

/-- The packets handed to `insertFlow` are those with that fate. -/
lemma Recorded.reached {fates : List (Packet × Fate)} {s : State} (h : Recorded fates [] s) :
    s.reached = (fates.filter fun w => w.2 = .parsed .accepted).map Prod.fst := by
  have hintake : s.reached = s.intake.filterMap Event.reached? := by
    rw [State.reached, State.intake, List.filterMap_filter]
    refine List.filterMap_congr fun e _ => ?_
    cases e <;> simp [Event.reached?, Event.intake]
  rw [hintake, h.intake, List.append_nil, reached_events]

/-! ## What leaves the accounts alone -/

/-- The counters are the same, no packet has come or was handed to `insertFlow`, and the pool of sessions
has not run dry. -/
structure Uncounted (s s' : State) : Prop where
  unprocessedPackets : s'.unprocessedPackets = s.unprocessedPackets
  countPcktsMalformed : s'.countPcktsMalformed = s.countPcktsMalformed
  intake : s'.intake = s.intake
  pool : s.ipSessionPool.free ≠ [] → s'.ipSessionPool.free ≠ []

section Uncounted

variable {ps : List Packet} {s s' t : State} {p : Packet}

lemma Uncounted.refl (s : State) : Uncounted s s :=
  ⟨rfl, rfl, rfl, id⟩

lemma Uncounted.trans (h : Uncounted s t) (h' : Uncounted t s') : Uncounted s s' :=
  ⟨h'.unprocessedPackets.trans h.unprocessedPackets,
    h'.countPcktsMalformed.trans h.countPcktsMalformed, h'.intake.trans h.intake,
    fun hne => h'.pool (h.pool hne)⟩

/-- Logging anything else. -/
lemma Uncounted.of_logged (hunprocessed : s'.unprocessedPackets = s.unprocessedPackets)
    (hmalformed : s'.countPcktsMalformed = s.countPcktsMalformed)
    (hpool : s'.ipSessionPool = s.ipSessionPool) {l : List Event} (htrace : s'.trace = s.trace ++ l)
    (hl : l.filter Event.intake = []) : Uncounted s s' := by
  refine ⟨hunprocessed, hmalformed, ?_, fun hne => by rwa [hpool]⟩
  rw [State.intake, State.intake, htrace, List.filter_append, hl, List.append_nil]

lemma Uncounted.accounted {l : List Event} (h : Uncounted s s') (ha : Accounted ps l s) :
    Accounted ps l s' := by
  obtain ⟨hpool, fates, hps, hfits, htold⟩ := ha
  exact ⟨h.pool hpool, fates, hps, hfits, h.unprocessedPackets.trans htold.unprocessedPackets,
    h.countPcktsMalformed.trans htold.countPcktsMalformed, h.intake.trans htold.intake⟩

/-! ### The pools -/

lemma getNodel_uncounted (s : State) : Uncounted s (getNodel s).1 := by
  unfold getNodel
  split
  · exact ⟨rfl, rfl, rfl, id⟩
  · exact .of_logged rfl rfl rfl rfl rfl
  · exact ⟨rfl, rfl, rfl, id⟩

lemma releaseNodel_uncounted (s : State) (n : NodeId) : Uncounted s (releaseNodel s n) := by
  unfold releaseNodel
  split
  · exact ⟨rfl, rfl, rfl, id⟩
  · exact ⟨rfl, rfl, rfl, id⟩

lemma releaseIPSession_uncounted (s : State) (i : SessionId) :
    Uncounted s (releaseIPSession s i) := by
  unfold releaseIPSession
  simp only
  split
  · exact ⟨rfl, rfl, rfl, id⟩
  · rename_i pool hpool
    refine ⟨rfl, rfl, rfl, fun _ => ?_⟩
    unfold Pool.release at hpool
    split at hpool
    · exact absurd hpool (by simp)
    · rw [← Option.some.inj hpool]
      exact List.append_ne_nil_of_right_ne_nil _ (List.cons_ne_nil _ _)

/-! ### The export thread -/

lemma popExpired_uncounted (drain : Bool) (idle : ExportPc) (s : State) :
    Uncounted s (popExpired drain idle s) := by
  unfold popExpired
  split
  · exact ⟨rfl, rfl, rfl, id⟩
  · exact ⟨rfl, rfl, rfl, id⟩

lemma exportStep_uncounted (s : State) : Uncounted s (exportStep s) := by
  unfold exportStep
  split
  · split_ifs
    · exact ⟨rfl, rfl, rfl, id⟩
    · exact popExpired_uncounted ..
  · split
    · exact ⟨rfl, rfl, rfl, id⟩
    · exact .of_logged rfl rfl rfl rfl rfl
  · rename_i drain n i _
    exact (releaseIPSession_uncounted s i).trans ⟨rfl, rfl, rfl, id⟩
  · rename_i drain n _
    exact (releaseNodel_uncounted s n).trans ⟨rfl, rfl, rfl, id⟩
  · exact popExpired_uncounted ..
  · exact ⟨rfl, rfl, rfl, id⟩

/-! ### Up to the parser -/

lemma unlinkSession_uncounted (s : State) (n b : NodeId) (i : SessionId) :
    Uncounted s (unlinkSession s n b i) := by
  unfold unlinkSession
  refine .trans ?_ (releaseNodel_uncounted _ b)
  exact ⟨rfl, rfl, rfl, id⟩

lemma cleanupStep_uncounted (n : NodeId) (s : State) : Uncounted s (cleanupStep n s).1 := by
  unfold cleanupStep
  split
  · rename_i b _
    split
    · exact ⟨rfl, rfl, rfl, id⟩
    · rename_i i _
      simp only
      have htested : Uncounted s
          (s.log (.tested (s.ips i).lastpacketTimestamp s.lastPacketTimestamp)) :=
        .of_logged rfl rfl rfl rfl rfl
      split_ifs
      · refine htested.trans ((unlinkSession_uncounted _ n b i).trans ?_)
        exact .of_logged rfl rfl rfl rfl rfl
      · exact htested
  · exact ⟨rfl, rfl, rfl, id⟩

lemma flagsStep_uncounted (n : NodeId) (s : State) : Uncounted s (flagsStep n s).1 := by
  unfold flagsStep
  split
  · rename_i b _
    split
    · exact ⟨rfl, rfl, rfl, id⟩
    · rename_i i _
      exact unlinkSession_uncounted s n b i
  · exact ⟨rfl, rfl, rfl, id⟩

lemma cleanupLoop_uncounted (fuel : ℕ) (n : Option NodeId) :
    (cleanupLoop fuel n).Each Uncounted := by
  induction fuel generalizing n with
  | zero =>
      cases n with
      | none => trivial
      | some n => exact .act fun s => ⟨rfl, rfl, rfl, id⟩
  | succ fuel ih =>
      cases n with
      | none => trivial
      | some n => exact .bind (.atomic (cleanupStep_uncounted n)) ih

lemma flagsLoop_uncounted (fuel : ℕ) (n : Option NodeId) : (flagsLoop fuel n).Each Uncounted := by
  induction fuel generalizing n with
  | zero =>
      cases n with
      | none => trivial
      | some n => exact .act fun s => ⟨rfl, rfl, rfl, id⟩
  | succ fuel ih =>
      cases n with
      | none => trivial
      | some n => exact .bind (.atomic (flagsStep_uncounted n)) ih

lemma cleanupFlows_uncounted : cleanupFlows.Each Uncounted := by
  refine .bind (.atomic fun s => .refl s) fun x => ?_
  refine .bind (cleanupLoop_uncounted _ _) fun _ => ?_
  exact .bind (flagsLoop_uncounted _ _) fun _ => .act fun s => ⟨rfl, rfl, rfl, id⟩

lemma firstPacket_uncounted (s : State) : Uncounted s (firstPacket s).1 := by
  unfold firstPacket
  simp only
  split_ifs
  · exact .of_logged rfl rfl rfl rfl rfl
  · exact ⟨rfl, rfl, rfl, id⟩

lemma countSeconds_uncounted (s : State) : Uncounted s (countSeconds s) := by
  unfold countSeconds
  simp only
  split_ifs
  · exact .of_logged rfl rfl rfl rfl rfl
  · exact ⟨rfl, rfl, rfl, id⟩

lemma sameSecond_uncounted (s : State) : Uncounted s (sameSecond s) := by
  unfold sameSecond
  split_ifs
  · exact ⟨rfl, rfl, rfl, id⟩
  · exact ⟨rfl, rfl, rfl, id⟩
  · exact ⟨rfl, rfl, rfl, id⟩

/-- `process_packet` between the clock and the parser. -/
def keepSeconds : Prog State Unit := do
  if ← Prog.atomic firstPacket then
    perSecOps
  else
    Prog.act sameSecond

lemma keepSeconds_uncounted : keepSeconds.Each Uncounted := by
  refine .bind (.atomic firstPacket_uncounted) fun second => ?_
  split_ifs
  · refine .bind (.act countSeconds_uncounted) fun _ => ?_
    exact .bind cleanupFlows_uncounted fun _ => .act fun s => ⟨rfl, rfl, rfl, id⟩
  · exact .act sameSecond_uncounted

/-! ### `insertFlow` -/

lemma updateFlowTable_uncounted (s : State) (j : SessionId) (newFlow : IPFlow) :
    Uncounted s (updateFlowTable s j newFlow) := by
  unfold updateFlowTable
  simp only
  split
  · exact ⟨rfl, rfl, rfl, id⟩
  · exact ⟨rfl, rfl, rfl, id⟩

lemma insertFlowLookup_uncounted (i : SessionId) (s : State) :
    Uncounted s (insertFlowLookup i s).1 := by
  unfold insertFlowLookup
  simp only
  split
  · exact ⟨rfl, rfl, rfl, id⟩
  · split
    · exact ⟨rfl, rfl, rfl, id⟩
    · rename_i j _
      have htested : Uncounted s
          (s.log (.tested (s.ips j).lastpacketTimestamp s.lastPacketTimestamp)) :=
        .of_logged rfl rfl rfl rfl rfl
      split_ifs
      · exact htested
      · refine htested.trans ((updateFlowTable_uncounted _ j (s.ips i).incoming).trans ?_)
        exact .of_logged rfl rfl rfl rfl rfl

lemma insertFlowTableFirst_uncounted (i : SessionId) (s : State) :
    Uncounted s (insertFlowTableFirst i s).1 := by
  unfold insertFlowTableFirst
  simp only
  set t := s.setSession i { s.ips i with
    lastpacketTimestamp := s.lastPacketTimestamp
    firstpacketTimestamp := s.lastPacketTimestamp
    currentFlow := some i }
  have hwritten : Uncounted s t := ⟨rfl, rfl, rfl, id⟩
  have ht := hwritten.trans (getNodel_uncounted t)
  split
  · exact ht.trans ⟨rfl, rfl, rfl, id⟩
  · exact ht.trans ⟨rfl, rfl, rfl, id⟩

lemma insertFlowTableSecond_uncounted (i : SessionId) (index : ℕ) (s : State) :
    Uncounted s (insertFlowTableSecond i index s).1 := by
  unfold insertFlowTableSecond
  simp only
  split
  · exact (getNodel_uncounted s).trans (.of_logged rfl rfl rfl (List.append_nil _).symm rfl)
  · split
    · exact (getNodel_uncounted s).trans (.of_logged rfl rfl rfl (List.append_nil _).symm rfl)
    · refine (getNodel_uncounted s).trans ?_
      exact .of_logged rfl rfl rfl rfl rfl

lemma insertFlowTableUndo_uncounted (s : State) : Uncounted s (insertFlowTableUndo s) := by
  unfold insertFlowTableUndo
  split
  · exact ⟨rfl, rfl, rfl, id⟩
  · rename_i n _
    exact (releaseNodel_uncounted s n).trans ⟨rfl, rfl, rfl, id⟩

lemma insertFlow_uncounted (i : SessionId) : (insertFlow i).Each Uncounted := by
  refine .bind (.atomic (insertFlowLookup_uncounted i)) fun found => ?_
  cases found with
  | done => trivial
  | insert index =>
      refine .bind (.atomic (insertFlowTableFirst_uncounted i)) fun ret => ?_
      split_ifs
      · trivial
      · refine .bind (.atomic (insertFlowTableSecond_uncounted i index)) fun ret => ?_
        split_ifs
        · exact .act insertFlowTableUndo_uncounted
        · trivial

/-! ### The shutdown -/

lemma capturaSenial_uncounted : capturaSenial.Each Uncounted := by
  refine .bind (.bind (.act fun s => ?_) fun _ => cleanupFlows_uncounted) fun _ => .act fun s => ?_
  · exact .of_logged rfl rfl rfl rfl rfl
  · exact ⟨rfl, rfl, rfl, id⟩

end Uncounted

/-! ## The accounts -/

section Accounts

variable {ps : List Packet} {s s' : State} {p : Packet} {f : Phase} {α : Type}

lemma stable_accounted (ps : List Packet) (l : List Event) : Stable ExportStep (Accounted ps l) := by
  rintro s s' h rfl
  exact (exportStep_uncounted s).accounted h

/-- What counts nothing keeps the accounts, under interference. -/
lemma safe_uncounted {prog : Prog State α} {l : List Event} (h : prog.Each Uncounted)
    (ha : Accounted ps l s) : Safe ExportStep (fun _ => True) (fun _ => Accounted ps l) prog s := by
  refine .of_each (stable_accounted ps l) (fun _ _ => trivial) ?_ ha
  induction prog with
  | ret a => trivial
  | sec u k ih => exact ⟨fun s hs => (h.1 s).accounted hs, fun s => ih s (h.2 s)⟩

/-- A packet has come. -/
lemma Accounted.received (h : Accounted ps [] s) (t u : UInt64) (p : Packet) :
    Accounted ps [.received p]
      ({ s with lastPacketTimestamp := t, current := u }.log (.received p)) := by
  obtain ⟨hpool, fates, hps, hfits, htold⟩ := h
  refine ⟨hpool, fates, hps, hfits, htold.unprocessedPackets, htold.countPcktsMalformed, ?_⟩
  rw [intake_log]
  show s.intake ++ _ = _
  rw [htold.intake, List.append_nil]
  rfl

/-- A packet comes to its end. -/
lemma Accounted.concat (h : Accounted ps [.received p] s) {fate : Fate} {l : List Event}
    (hfits : Fits p fate) (hevents : fate.events p = .received p :: l)
    (hdropped : s'.unprocessedPackets = s.unprocessedPackets + if fate = .dropped then 1 else 0)
    (hmalformed : s'.countPcktsMalformed
      = s.countPcktsMalformed + if fate = .parsed .malformed then 1 else 0)
    (hintake : s'.intake = s.intake ++ l) (hpool : s'.ipSessionPool = s.ipSessionPool) :
    Accounted (ps ++ [p]) [] s' := by
  obtain ⟨hne, fates, rfl, hall, hrecorded⟩ := h
  refine ⟨by rwa [hpool], fates ++ [(p, fate)], by simp, ?_, ?_, ?_, ?_⟩
  · intro w hw
    rcases List.mem_append.mp hw with hw | hw
    · exact hall w hw
    · rw [List.mem_singleton.mp hw]
      exact hfits
  · rw [hdropped, hrecorded.unprocessedPackets, List.map_append, List.count_append]
    simp [List.count_singleton]
  · rw [hmalformed, hrecorded.countPcktsMalformed, List.map_append, List.count_append]
    simp [List.count_singleton]
  · rw [hintake, hrecorded.intake, List.flatMap_append, List.flatMap_singleton, hevents]
    simp

/-- The pool does not run dry: `getIPSession` gets something or reports that one session is left. -/
lemma pool_get_cases {pool : Pool} (hne : pool.free ≠ []) :
    pool.get = some (pool, none) ∨ ∃ q i, pool.get = some (q, some i) ∧ q.free ≠ [] := by
  unfold Pool.get
  split
  · exact absurd ‹_› hne
  · exact Or.inl rfl
  · exact Or.inr ⟨_, _, rfl, List.cons_ne_nil _ _⟩

lemma acquireSession_accounted (hlong : 14 ≤ p.caplen) (h : Accounted ps [.received p] s) :
    ((acquireSession s).2 = none ∧ Accounted (ps ++ [p]) [] (acquireSession s).1)
      ∨ ∃ i, (acquireSession s).2 = some i ∧ Accounted ps [.received p] (acquireSession s).1 := by
  rcases Option.eq_none_or_eq_some s.auxSession with haux | ⟨i, haux⟩
  · rw [acquireSession_of_none haux]
    rcases pool_get_cases h.1 with hget | ⟨pool, i, hget, hpool⟩
    · have hdropped : Fits p .dropped := hlong
      rw [hget]
      refine Or.inl ⟨rfl, h.concat hdropped rfl rfl rfl ?_ rfl⟩
      exact intake_log s _
    · rw [hget]
      exact Or.inr ⟨i, rfl, Uncounted.accounted (s := s) ⟨rfl, rfl, rfl, fun _ => hpool⟩ h⟩
  · rw [acquireSession_of_some haux]
    exact Or.inr ⟨i, rfl, Uncounted.accounted (s := s) ⟨rfl, rfl, rfl, id⟩ h⟩

lemma parseInto_accounted (i : SessionId) (hlong : 14 ≤ p.caplen)
    (h : Accounted ps [.received p] s) : Accounted (ps ++ [p]) [] (parseInto p i s).1 := by
  obtain ⟨v, -, heq⟩ := parseInto_eq p i s
  have hverdict := parse_verdict p (s.ips i).incoming
  have hfits : Fits p (.parsed (parse p (s.ips i).incoming).verdict) := ⟨hlong, hverdict⟩
  rw [heq]
  cases hv : (parse p (s.ips i).incoming).verdict with
  | ignored =>
      rw [hv] at hfits
      exact h.concat hfits rfl rfl rfl (List.append_nil _).symm rfl
  | malformed =>
      rw [hv] at hfits
      exact h.concat hfits rfl rfl rfl (List.append_nil _).symm rfl
  | accepted =>
      rw [hv] at hfits
      exact h.concat hfits rfl rfl rfl (intake_log _ _) rfl

/-- **A packet comes to its end** whatever the export thread does meanwhile. -/
lemma safe_processPacket_accounted (p : Packet) (h : Accounted ps [] s) :
    Safe ExportStep (fun _ => True) (fun _ => Accounted (ps ++ [p]) []) (processPacket p) s := by
  have htrue : ∀ l s, Accounted ps l s → True := fun _ _ _ => trivial
  have hstable := stable_accounted ps [.received p]
  rw [processPacket_eq]
  refine .act_bind (g := fun _ => keepSeconds >>= fun _ => parseFrame p) (stable_accounted ps [])
    (htrue []) (fun s hs => ?_) h
  refine .bind (safe_uncounted keepSeconds_uncounted (hs.received p.ts p.sec p)) fun _ s hs => ?_
  unfold parseFrame
  split_ifs with hlong
  · refine .atomic_bind hstable (htrue _) (fun s hs => ?_) hs
    rcases acquireSession_accounted hlong hs with ⟨hnone, hdone⟩ | ⟨i, hsome, hs'⟩
    · rw [hnone]
      exact .done (stable_accounted _ _) (fun _ _ => trivial) hdone
    · rw [hsome]
      refine .atomic_bind hstable (htrue _) (fun s hs => ?_) hs'
      have hdone := parseInto_accounted i hlong hs
      split_ifs
      · exact safe_uncounted (insertFlow_uncounted i) hdone
      · exact .done (stable_accounted _ _) (fun _ _ => trivial) hdone
  · have hshort : Fits p .short := by
      rw [Fits, ← UInt32.not_le]
      exact hlong
    refine .ret hstable (fun _ _ => trivial) (fun s hs => ?_) hs
    exact hs.concat hshort rfl rfl rfl (List.append_nil _).symm rfl

/-- What is left to do gets every packet to its end. -/
def Accounting (ps : List Packet) (s : State) : Phase → Prop
  | .busy rest => Safe ExportStep (fun _ => True) (fun _ => Accounted ps []) rest s
  | .closing rest => Safe ExportStep (fun _ => True) (fun _ => Accounted ps []) rest s
  | _ => Accounted ps [] s

lemma accounted_initialState : Accounted [] [] initialState := by
  refine ⟨?_, [], rfl, by simp, rfl, rfl, rfl⟩
  simp [initialState, Pool.alloc, maxPoolSession]

lemma Run.accounting (h : Run ps s f) : Accounting ps s f := by
  induction h with
  | start => exact accounted_initialState
  | @packet ps s p _ ih => exact safe_processPacket_accounted p ih
  | busy _ ih => exact Safe.sec_step ih
  | @back ps s _ ih => exact Safe.result (E := ExportStep) (a := ()) ih
  | shutdown _ ih => exact safe_uncounted capturaSenial_uncounted ih
  | closing _ ih => exact Safe.sec_step ih
  | @close ps s _ ih => exact Safe.result (E := ExportStep) (a := ()) ih
  | @«export» ps s s' f _ hs ih =>
      cases f with
      | idle => exact stable_accounted ps [] ih hs
      | busy rest => exact Safe.env_step ih hs
      | closing rest => exact Safe.env_step ih hs
      | closed => exact stable_accounted ps [] ih hs

/-- **Every packet is accounted for.**  Between two packets and after the shutdown, every packet has come
to one end, and the trace shows it at its place: for a packet that was dropped, that `getIPSession` has
returned NULL.  `unprocessed_packets` and `count_pckts_malformed` are the numbers of those dropped and
malformed, and if `initData` was called once at most, those handed to `insertFlow` are in the flows, each
in one of them. -/
theorem packets_accounted (h : Run ps s f) (hf : f = .idle ∨ f = .closed) :
    ∃ fates : List (Packet × Fate), fates.map Prod.fst = ps ∧ (∀ w ∈ fates, Fits w.1 w.2)
      ∧ s.intake = (fates.flatMap fun w => w.2.events w.1)
      ∧ s.unprocessedPackets = (fates.map Prod.snd).count .dropped
      ∧ s.countPcktsMalformed = (fates.map Prod.snd).count (.parsed .malformed)
      ∧ (s.inits ≤ 1 → ∃ flows : List (Session Packet), s.records.Perm (flows.map recordOf)
        ∧ (flows.flatMap Session.packets).Perm
          ((fates.filter fun w => w.2 = .parsed .accepted).map Prod.fst)) := by
  have haccounted : Accounted ps [] s := by
    rcases hf with rfl | rfl
    · exact h.accounting
    · exact h.accounting
  obtain ⟨-, fates, hps, hfits, hrecorded⟩ := haccounted
  refine ⟨fates, hps, hfits, hrecorded.intake.trans (List.append_nil _), hrecorded.unprocessedPackets,
    hrecorded.countPcktsMalformed, fun hinit => ?_⟩
  obtain ⟨g, a, hrep, -, -⟩ := h.settled hf
  obtain ⟨hintact, -, -⟩ := hrep.shows.intact hinit
  refine ⟨a.chain, hrep.records_perm, ?_⟩
  rw [← hrecorded.reached, hrep.shows.arrivals, List.append_nil]
  exact hrep.shows.reach.packets_perm hintact

/-- A flow with two packets, a frame that is too short, and one that is not IPv4. -/
theorem packets_accounted_four :
    let short := { datagram 1 6 0 with caplen := 13 }
    let arp := { datagram 1 7 0 with bytes := fun n => if n = 12 then 0x08 else 0x06 }
    let s := monitor [datagram 1 5 0, short, arp, datagram 1 8 0]
    s.inits ≤ 1 ∧ s.reached.length = 2 ∧ ∃ fates : List (Packet × Fate), fates.length = 4
      ∧ s.intake = (fates.flatMap fun w => w.2.events w.1)
      ∧ s.unprocessedPackets = (fates.map Prod.snd).count .dropped := by
  intro short arp s
  obtain ⟨fates, hps, -, hintake, hdropped, -⟩ :=
    packets_accounted (run_monitor [datagram 1 5 0, short, arp, datagram 1 8 0]) (.inl rfl)
  refine ⟨by decide +kernel, by decide +kernel, fates, ?_, hintake, hdropped⟩
  rw [← List.length_map (f := Prod.fst), hps]
  rfl

end Accounts

end Flow
