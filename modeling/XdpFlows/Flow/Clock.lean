import XdpFlows.Flow.Effects

/-!
# The clock of the monitor

The part of `process_packet` that keeps the time: `last_packet_timestamp`, the seconds `previous` and
`previous2`, and `initData`, which is called whenever `previous` is 0.  `Clock.step` is that part as
a function of the packet alone, and the lemmas here say that the sections of the process thread
follow it while the store keeps its meaning.

`At c pend C` is the form of all assertions of the process thread: the memory means something, the
clock stands at `c` and `C` holds of what the export thread does not touch.
-/

namespace Flow

open SessionWindow Sections

/-! ## The clock alone -/

/-- The time variables, how often `initData` was called, what the clock has been set to, and whether
the export thread was told to stop. -/
structure Clock where
  now : UInt64
  current : UInt64
  previous : UInt64
  previous2 : UInt64
  inits : ℕ
  times : List UInt64
  stop : Bool
deriving DecidableEq, Repr

def State.clock (s : State) : Clock :=
  ⟨s.lastPacketTimestamp, s.current, s.previous, s.previous2, s.inits, s.times, s.stopEt⟩

lemma clock_log (s : State) {e : Event} (htime : e.time? = none) (hinit : e.isInit = false) :
    (s.log e).clock = s.clock := by
  have htimes : (s.log e).times = s.times := by
    rw [times_log, htime]
    exact List.append_nil _
  have hinits : (s.log e).inits = s.inits := by
    rw [inits_log, hinit]
    rfl
  rw [State.clock, htimes, hinits]
  rfl

namespace Clock

/-- The head of `process_packet`. -/
def stamp (c : Clock) (p : Packet) : Clock :=
  { c with now := p.ts, current := p.sec, times := c.times ++ [p.ts] }

/-- `if (previous == 0) initData();`. -/
def init (c : Clock) : Clock :=
  if c.previous = 0 then
    { c with previous := c.current, previous2 := c.previous, inits := c.inits + 1 }
  else c

/-- The assignments of `perSecOps`. -/
def advance (c : Clock) : Clock :=
  { c with previous := c.current, previous2 := c.previous }

/-- The branch of `process_packet` in which no second has passed. -/
def stay (c : Clock) : Clock :=
  if c.previous = c.current then c
  else if c.previous2 < c.current then { c with previous := c.previous2 }
  else c

/-- What `process_packet` does to the clock. -/
def step (c : Clock) (p : Packet) : Clock :=
  let c := (c.stamp p).init
  if c.previous < c.current then c.advance else c.stay

/-- The clock before the first packet. -/
def start : Clock :=
  ⟨0, 0, 0, 0, 0, [], false⟩

/-- The clock after some packets. -/
def after (ps : List Packet) : Clock :=
  ps.foldl step start

lemma after_concat (ps : List Packet) (p : Packet) : after (ps ++ [p]) = (after ps).step p := by
  rw [after, List.foldl_append]
  rfl

-- the time of the packet is generalised: the kernel would compute with it to tell the clocks apart
lemma stamp_previous (c : Clock) (p : Packet) : (c.stamp p).previous = c.previous := by
  unfold stamp
  generalize p.ts = t, p.sec = u
  rfl

lemma stamp_inits (c : Clock) (p : Packet) : (c.stamp p).inits = c.inits := by
  unfold stamp
  generalize p.ts = t, p.sec = u
  rfl

lemma stamp_stop (c : Clock) (p : Packet) : (c.stamp p).stop = c.stop := by
  unfold stamp
  generalize p.ts = t, p.sec = u
  rfl

lemma stamp_times (c : Clock) (p : Packet) : (c.stamp p).times = c.times ++ [p.ts] := rfl

/-- Only `previous` may move when no second has passed. -/
lemma stay_eq (c : Clock) : ∃ x, c.stay = { c with previous := x } := by
  unfold stay
  split_ifs
  · exact ⟨c.previous, rfl⟩
  · exact ⟨c.previous2, rfl⟩
  · exact ⟨c.previous, rfl⟩

lemma init_eq (c : Clock) :
    ∃ x y n, c.init = { c with previous := x, previous2 := y, inits := n } := by
  unfold init
  split_ifs
  · exact ⟨c.current, c.previous, c.inits + 1, rfl⟩
  · exact ⟨c.previous, c.previous2, c.inits, rfl⟩

/-- After `initData`, if there is any, only the seconds move. -/
lemma step_eq (c : Clock) (p : Packet) :
    ∃ x y, c.step p = { (c.stamp p).init with previous := x, previous2 := y } := by
  simp only [step]
  split_ifs
  · exact ⟨_, _, rfl⟩
  · obtain ⟨x, hx⟩ := stay_eq (c.stamp p).init
    exact ⟨x, _, hx⟩

lemma init_times (c : Clock) : c.init.times = c.times := by
  obtain ⟨x, y, n, h⟩ := init_eq c
  rw [h]

lemma step_times (c : Clock) (p : Packet) : (c.step p).times = c.times ++ [p.ts] := by
  obtain ⟨x, y, h⟩ := step_eq c p
  rw [h]
  exact init_times _

lemma step_now (c : Clock) (p : Packet) : (c.step p).now = p.ts := by
  obtain ⟨x, y, h⟩ := step_eq c p
  obtain ⟨x', y', n, h'⟩ := init_eq (c.stamp p)
  rw [h, h']
  rfl

lemma step_inits (c : Clock) (p : Packet) : (c.step p).inits = (c.stamp p).init.inits := by
  obtain ⟨x, y, h⟩ := step_eq c p
  rw [h]

lemma step_stop (c : Clock) (p : Packet) : (c.step p).stop = c.stop := by
  obtain ⟨x, y, h⟩ := step_eq c p
  obtain ⟨x', y', n, h'⟩ := init_eq (c.stamp p)
  rw [h, h', ← stamp_stop c p]

/-- The clock `b` has seen all that `c` has seen. -/
structure Below (c b : Clock) : Prop where
  times : c.times <+: b.times
  inits : c.inits ≤ b.inits

lemma Below.refl (c : Clock) : c.Below c :=
  ⟨List.prefix_refl _, Nat.le_refl _⟩

lemma Below.trans {a b c : Clock} (hab : a.Below b) (hbc : b.Below c) : a.Below c :=
  ⟨hab.times.trans hbc.times, hab.inits.trans hbc.inits⟩

lemma below_stamp (c : Clock) (p : Packet) : c.Below (c.stamp p) := by
  refine ⟨?_, (stamp_inits c p).ge⟩
  rw [stamp_times]
  exact List.prefix_append _ _

lemma below_init (c : Clock) : c.Below c.init := by
  refine ⟨(init_times c).symm ▸ List.prefix_refl _, ?_⟩
  unfold init
  split_ifs
  · exact Nat.le_succ _
  · exact Nat.le_refl _

lemma below_step (c : Clock) (p : Packet) : (c.stamp p).init.Below (c.step p) := by
  refine ⟨?_, (step_inits c p).ge⟩
  rw [step_times, init_times, stamp_times]

/-- The clock is set to the time of every packet. -/
lemma after_times (ps : List Packet) : (after ps).times = ps.map Packet.ts := by
  induction ps using List.reverseRecOn with
  | nil => rfl
  | append_singleton ps p ih => rw [after_concat, step_times, ih, List.map_append]; rfl

end Clock

/-! ## Quiet events -/

/-- Events that say nothing about a session and nothing about `initData`. -/
structure Event.Quiet (e : Event) : Prop where
  life : ∀ i, e.life? i = none
  exported : e.exported? = none
  init : e.isInit = false
  opened : e.isOpened = false

section Sections

variable {g : Layout} {a b : Flows Packet UInt64} {pend pend' : List Packet} {s : State}

/-- The trace grows by a quiet event. -/
lemma Lives.log (h : Lives g s) {e : Event} (he : e.Quiet)
    (hfresh : s.inits = 0 → e.reached? = none) : Lives g (s.log e) := by
  have hlife : ∀ i, (s.log e).life i = s.life i := by
    intro i
    rw [life_log, he.life i]
    exact List.append_nil _
  have hexp : (s.log e).exported = s.exported := by
    rw [exported_log, he.exported]
    exact List.append_nil _
  have hinits : (s.log e).inits = s.inits := by
    rw [inits_log, he.init]
    rfl
  have hins : (s.log e).insertions = s.insertions := by
    rw [insertions_log, he.opened]
    rfl
  refine ⟨?_, ?_, ?_, ?_, ?_, ?_, ?_⟩
  · intro x hx
    rw [hlife]
    exact h.live x hx
  · intro w hw
    rw [hlife]
    exact h.gone w hw
  · intro i h1 h2 h3
    rw [hlife]
    exact h.rest i h1 h2 h3
  · rw [hexp]
    exact h.counted
  · rw [hinits, hins, hexp]
    exact h.tally
  · rw [hinits]
    exact h.keeps
  · rw [hinits, hexp, reached_log]
    intro h0
    obtain ⟨h1, h2, h3, h4, h5, h6, h7, h8⟩ := h.fresh h0
    refine ⟨h1, h2, h3, h4, h5, h6, h7, ?_⟩
    rw [h8, hfresh h0]
    rfl

/-- Setting the clock, as the clock sees it. -/
lemma clock_tick (s : State) {e : Event} (hinit : e.isInit = false) {t : UInt64}
    (ht : e.time? = some t) (u : UInt64) :
    (({ s with lastPacketTimestamp := t, current := u } : State).log e).clock
      = { s.clock with now := t, current := u, times := s.times ++ [t] } := by
  have htimes : (({ s with lastPacketTimestamp := t, current := u } : State).log e).times
      = s.times ++ [t] := by
    rw [times_log, ht]
    rfl
  have hinits : (({ s with lastPacketTimestamp := t, current := u } : State).log e).inits
      = s.inits := by
    rw [inits_log, hinit]
    rfl
  rw [State.clock, htimes, hinits]
  rfl

/-- The clock is set. -/
lemma Rep.tick (h : Rep g a pend s) {e : Event} (he : e.Quiet) (hreached : e.reached? = none)
    (hnote : e.note? = none) (hfed : e.isNodeError = false) {t c : UInt64}
    (ht : e.time? = some t) :
    Rep g { a with now := t, times := a.times ++ [t] } pend
      (({ s with lastPacketTimestamp := t, current := c } : State).log e) := by
  obtain ⟨ho, hl, hs⟩ := h
  have hl' : Lives g ({ s with lastPacketTimestamp := t, current := c } : State) :=
    { hl with live := hl.live }
  refine ⟨{ ho with nodes := ho.nodes }, hl'.log he fun _ => hreached, ?_⟩
  refine { hs with
    reach := hs.reach.tail (.tick t), now := rfl, out := ?_, times := ?_, arrivals := ?_,
    notes := ?_, intact := ?_ }
  · rw [exported_log, he.exported]
    simp only [Option.toList_none, List.append_nil]
    exact hs.out
  · rw [times_log, ht]
    exact congrArg (· ++ [t]) hs.times
  · rw [reached_log, hreached]
    simp only [Option.toList_none, List.append_nil]
    exact hs.arrivals
  · rw [notes_log, hnote]
    simp only [Option.toList_none, List.append_nil]
    exact hs.notes
  · rw [inits_log, he.init, nodeErrors_log, hfed]
    exact hs.intact

/-- A note about the store, or a packet that reaches `insertFlow`. -/
lemma Rep.log (h : Rep g a pend s) {e : Event} (he : e.Quiet) (htime : e.time? = none)
    (hfed : e.isNodeError = false) (hreach : rules.Reach 0 b) (hlive : b.live = a.live)
    (hout : b.out = a.out) (hnow : b.now = a.now) (htimes : b.times = a.times)
    (harrivals : s.reached ++ e.reached?.toList = b.arrivals ++ pend')
    (hnotes : b.notes = a.notes ++ e.note?.toList) (hintact : b.intact = a.intact)
    (hfresh : s.inits = 0 → e.reached? = none) : Rep g b pend' (s.log e) := by
  obtain ⟨ho, hl, hs⟩ := h
  refine ⟨{ ho with nodes := ho.nodes }, hl.log he hfresh, ?_⟩
  refine ⟨hreach, ?_, ?_, ?_, ?_, ?_, ?_, ?_⟩
  · rw [hlive]
    exact hs.live
  · rw [exported_log, he.exported, hout]
    simp only [Option.toList_none, List.append_nil]
    exact hs.out
  · rw [hnow]
    exact hs.now
  · rw [times_log, htime, htimes]
    simp only [Option.toList_none, List.append_nil]
    exact hs.times
  · rw [reached_log]
    exact harrivals
  · rw [notes_log, hnotes, hs.notes]
  · rw [inits_log, he.init, hintact, nodeErrors_log, hfed]
    exact hs.intact

/-- An event that means nothing to the store. -/
lemma Rep.log_silent (h : Rep g a pend s) {e : Event} (he : e.Quiet) (htime : e.time? = none)
    (hfed : e.isNodeError = false) (hreached : e.reached? = none) (hnote : e.note? = none) :
    Rep g a pend (s.log e) := by
  refine h.log he htime hfed h.shows.reach rfl rfl rfl rfl ?_ ?_ rfl fun _ => hreached
  · rw [hreached]
    simp only [Option.toList_none, List.append_nil]
    exact h.shows.arrivals
  · rw [hnote]
    exact (List.append_nil _).symm

/-- The seconds are moved, after the first call of `initData`. -/
lemma Rep.setSeconds (h : Rep g a pend s) (hinits : 1 ≤ s.inits) (x y : UInt64) (k : ℕ) :
    Rep g a pend { s with previous := x, previous2 := y, nodeSecCounter := k } := by
  obtain ⟨ho, hl, hs⟩ := h
  refine ⟨{ ho with nodes := ho.nodes }, { hl with fresh := fun h0 => ?_ },
    { hs with reach := hs.reach }⟩
  have hz : s.inits = 0 := h0
  omega

/-! ## `initData` -/

/-- **Forgetting the store.**  All that was in the table or on its way to the export thread is lost;
the first time, there is nothing. -/
lemma Rep.initData (h : Rep g a pend s) (hnaux : s.naux = none) (hpend : pend = []) :
    ∃ g' a', Rep g' a' pend (initData s) ∧ g'.live = [] := by
  obtain ⟨ho, hl, hs⟩ := h
  subst hpend
  set g' : Layout := { g with
    live := [], born := [], expired := [], flags := []
    lostNodes := g.lostNodes ++ g.live.map Entry.anode ++ g.live.map Entry.bnode
      ++ g.expired.map Prod.fst ++ g.flags.map Prod.fst
    lostSessions := g.lostSessions ++ s.auxSession.toList ++ g.live.map Entry.sess
      ++ g.expired.map Prod.snd ++ g.flags.map Prod.snd } with hg'
  have hgone' : g'.gone = g.hand := by simp [hg', Layout.gone]
  have hsub : ∀ w ∈ g.hand, w ∈ g.gone := by
    intro w hw
    simp [Layout.gone, hw]
  set n := s.exported.length + g.hand.length with hn
  have hinits : (Flow.initData s).inits = s.inits + 1 := inits_log _ _
  have hlife : ∀ i, (Flow.initData s).life i = s.life i := by
    intro i
    exact (life_log _ _ i).trans (List.append_nil _)
  have hexp : (Flow.initData s).exported = s.exported :=
    (exported_log _ _).trans (List.append_nil _)
  have hins : (Flow.initData s).insertions = s.insertions := insertions_log _ _
  have hfirst : s.inits + 1 ≤ 1 → s.inits = 0 := by omega
  refine ⟨g', { a with
    live := [], out := a.out.take n,
    intact := a.intact && (a.chain.isEmpty && a.arrivals.isEmpty) }, ⟨?_, ?_, ?_⟩, rfl⟩
  · refine ⟨?_, ?_, ho.nodePool, ho.sessionPool, rfl, rfl, rfl, ho.hand, ?_, ?_, .refl _,
      fun _ => rfl, fun _ => rfl, ho.cleared, ?_, ho.drains, ho.noFault⟩
    · refine List.Perm.trans ?_ ho.nodes
      rw [List.perm_iff_count]
      intro x
      simp only [Layout.nodes, hg', List.map_nil, List.count_append, List.count_nil]
      show s.nodelPool.free.count x + _ + _ + _ + _ + s.exporter.node.count x
        + s.naux.toList.count x + _ = _
      omega
    · refine List.Perm.trans ?_ ho.sessions
      rw [List.perm_iff_count]
      intro x
      simp only [Layout.sessions, hg', List.map_nil, List.count_append, List.count_nil]
      show s.ipSessionPool.free.count x + _ + _ + _ + _ + (g.hand.map Prod.snd).count x
        + s.exporter.printedSession.count x + _ = _
      have haux : (Flow.initData s).auxSession.toList.count x = 0 := rfl
      omega
    · intro e he
      exact absurd he List.not_mem_nil
    · intro w hw
      rw [hgone'] at hw
      exact ho.left w (hsub w hw)
    · intro m hm
      exact absurd (hnaux.symm.trans hm) (by simp)
  · refine ⟨?_, ?_, ?_, ?_, ?_, ?_, ?_⟩
    · intro e he
      exact absurd he List.not_mem_nil
    · intro w hw
      rw [hgone'] at hw
      rw [hlife]
      exact hl.gone w (hsub w hw)
    · intro i _ h2 h3
      rw [hlife]
      simp only [hg', List.mem_append, not_or] at h3
      rw [hgone'] at h2
      refine hl.rest i h3.1.1.2 ?_ h3.1.1.1.1
      simp only [Layout.gone, List.map_append, List.mem_append, not_or]
      exact ⟨⟨h2, h3.1.2⟩, h3.2⟩
    · rw [hexp]
      exact hl.counted
    · rw [hinits, hins, hexp, hgone']
      intro hi
      have ht := hl.tally (by omega)
      obtain ⟨-, h2, h3, -⟩ := hl.fresh (hfirst hi)
      have hhand : g.hand = [] := by
        simp only [Layout.gone, List.append_eq_nil_iff] at h3
        exact h3.1.1
      rw [h2, h3] at ht
      rw [hhand]
      exact ht
    · rw [hinits]
      intro hi
      obtain ⟨hk1, hk2⟩ := hl.keeps (by omega)
      obtain ⟨-, h2, h3, h4, -⟩ := hl.fresh (hfirst hi)
      simp only [Layout.gone, List.append_eq_nil_iff] at h3
      simp [hg', hk1, hk2, h2, h3.1.2, h3.2, h4]
    · rw [hinits]
      intro hi
      omega
  · refine ⟨hs.reach.tail (.wipe n), rfl, ?_, hs.now, ?_, ?_, ?_, ?_⟩
    · have hsplit : s.exported ++ g.gone.map (fun w => s.record w.2)
          = (s.exported ++ g.hand.map fun w => s.record w.2)
            ++ (g.expired ++ g.flags).map fun w => s.record w.2 := by
        simp [Layout.gone]
      rw [hexp, hgone', List.map_take, ← hs.out, hsplit, List.take_left' (by simp [hn])]
      rfl
    · exact hs.times.trans ((times_log _ _).trans (List.append_nil _)).symm
    · exact ((reached_log _ _).trans (List.append_nil _)).trans hs.arrivals
    · exact hs.notes.trans ((notes_log _ _).trans (List.append_nil _)).symm
    · rw [hinits]
      intro hi
      obtain ⟨hint, hunp, herr⟩ := hs.intact (by omega)
      obtain ⟨-, h2, h3, -, -, -, h7, h8⟩ := hl.fresh (hfirst hi)
      have hlive : a.live = [] := by
        have := hs.live
        rw [h2, List.map_nil, eq_comm, List.map_eq_nil_iff] at this
        exact this
      have hout : a.out = [] := by
        have := hs.out
        rw [h3, h7, List.map_nil, List.append_nil, eq_comm, List.map_eq_nil_iff] at this
        exact this
      have harr : a.arrivals = [] := by
        have := hs.arrivals
        rw [h8, List.append_nil] at this
        exact this.symm
      refine ⟨?_, hunp, (nodeErrors_log _ _).trans herr⟩
      simp [hint, Flows.chain, hlive, hout, harr]

end Sections

/-! ## Assertions of the process thread -/

/-- An assertion of the process thread. -/
def At (c : Clock) (pend : List Packet) (C : Layout → Flows Packet UInt64 → State → Prop)
    (s : State) : Prop :=
  ∃ g a, Rep g a pend s ∧ s.clock = c ∧ C g a s

/-- What holds at every moment: the memory means something, and the clock is on its way to `b`. -/
def Sound (b : Clock) (s : State) : Prop :=
  (∃ g a pend, Rep g a pend s) ∧ s.clock.Below b

lemma Frame.clock {g g' : Layout} {s s' : State} (h : Frame g s g' s') : s'.clock = s.clock := by
  simp only [State.clock, h.now, h.current, h.previous, h.previous2, h.inits, h.times,
    h.stopEt]

/-- An assertion about what the process thread works on is not disturbed by the export thread. -/
lemma stable_at {c : Clock} {pend : List Packet} {C : Layout → Flows Packet UInt64 → State → Prop}
    (hC : ∀ g a s g' s', Frame g s g' s' → C g a s → C g' a s') :
    Stable ExportStep (At c pend C) := by
  rintro s s' ⟨g, a, hrep, hclock, hc⟩ hstep
  obtain ⟨g', hrep', hframe⟩ := hrep.exportStep
  subst hstep
  exact ⟨g', a, hrep', hframe.clock.trans hclock, hC g a s g' _ hframe hc⟩

lemma At.sound {c : Clock} {pend : List Packet} {C : Layout → Flows Packet UInt64 → State → Prop}
    {b : Clock} (hb : c.Below b) (s : State) (h : At c pend C s) : Sound b s := by
  obtain ⟨g, a, hrep, hclock, -⟩ := h
  exact ⟨⟨g, a, pend, hrep⟩, hclock.symm ▸ hb⟩

end Flow
