import XdpFlows.Flow.Insert

/-!
# The process thread

The sections of `process_packet` one after the other: the clock, the once-a-second clean-up, the
session at hand, the parser, `insertFlow`.  `guarantees_processPacket` says that from an idle monitor
with the clock at `c` it gets, whatever the export thread does in between, to an idle monitor with the
clock at `c.step p`, and that every section on the way has one of the three effects.
`guarantees_capturaSenial` is the same for the shutdown, which leaves an empty table.
-/

namespace Flow

open SessionWindow Sections

section Process

variable {b c : Clock} {p : Packet} {i : SessionId} {s : State}

/-! ## The session at hand -/

/-- `parsePacket` finds a session: one is kept in `aux_session`, or the pool has one besides the one
it keeps back. -/
def SessionAtHand (s : State) : Prop :=
  s.auxSession ≠ none ∨ 2 ≤ s.ipSessionPool.free.length

/-- **What taking a session can come to.** -/
lemma Owns.acquireSession_cases {g : Layout} (h : Owns g s) :
    (¬ SessionAtHand s ∧ acquireSession s = ({ s.log (.error "Pool de flujos vacío") with
        unprocessedPackets := s.unprocessedPackets + 1 }, none))
      ∨ (∃ i pool, s.auxSession = none ∧ s.ipSessionPool.free = i :: pool.free
        ∧ pool.Ok maxPoolSession ∧ acquireSession s = ({ s with
          ipSessionPool := pool, usedSession := s.usedSession + 1, auxSession := some i }, some i))
      ∨ ∃ i, s.auxSession = some i
        ∧ acquireSession s = (s.setSession i { s.ips i with incoming := .zero }, some i) := by
  rcases Option.eq_none_or_eq_some s.auxSession with haux | ⟨i, haux⟩
  · rcases h.sessionPool.get with ⟨hone, hget⟩ | ⟨i, rest, pool, hfree, hget, rfl, hok⟩
    · refine Or.inl ⟨?_, by rw [acquireSession_of_none haux, hget]⟩
      rintro (hhand | hhand)
      · exact hhand haux
      · omega
    · exact Or.inr (Or.inl ⟨i, pool, haux, hfree, hok, by rw [acquireSession_of_none haux, hget]⟩)
  · exact Or.inr (Or.inr ⟨i, haux, acquireSession_of_some haux⟩)

/-- A cleared session is at hand. -/
def Fetched (c : Clock) (i : SessionId) : State → Prop :=
  At c [] fun _ _ s => s.naux = none ∧ s.flagsExpiredFlowList = [] ∧ s.auxSession = some i
    ∧ (s.ips i).incoming = .zero

lemma stable_fetched : Stable ExportStep (Fetched c i) := by
  refine stable_at ?_
  rintro g a s g' s' hf ⟨h1, h2, h3, h4⟩
  exact ⟨hf.naux.trans h1, hf.flags.trans h2, hf.aux.trans h3, (hf.auxData i h3).symm ▸ h4⟩

/-- Taking a session out of the pool. -/
lemma Rep.takeSession {g : Layout} {a : Flows Packet UInt64} {pend : List Packet}
    (h : Rep g a pend s) (haux : s.auxSession = none) (hinits : 1 ≤ s.inits) {rest : List ℕ}
    {pool : Pool} (hfree : s.ipSessionPool.free = i :: rest) (hrest : pool.free = rest)
    (hok : pool.Ok maxPoolSession) :
    Rep g a pend { s with
      ipSessionPool := pool, usedSession := s.usedSession + 1, auxSession := some i } := by
  obtain ⟨ho, hl, hs⟩ := h
  refine ⟨{ ho with
    sessions := ?_, sessionPool := hok, cleared := fun j hj => ho.cleared j ?_,
    naux := fun n hn => ?_ }, { hl with fresh := fun h0 => ?_ }, { hs with reach := hs.reach }⟩
  · refine List.Perm.trans ?_ ho.sessions
    rw [List.perm_iff_count]
    intro x
    simp only [Layout.sessions, hrest, hfree, haux, Option.toList_some, Option.toList_none,
      List.count_append, List.count_cons, List.count_nil]
    omega
  · rw [hfree, ← hrest]
    exact List.mem_cons_of_mem _ hj
  · obtain ⟨j, hj, -⟩ := ho.naux n hn
    exact absurd (haux.symm.trans hj) (by simp)
  · have hz : s.inits = 0 := h0
    omega

/-- **How `parsePacket` gets hold of a session.** -/
lemma Idle.acquire (h : Idle c s) (hinits : 1 ≤ c.inits) :
    Still s (acquireSession s).1
      ∧ (((acquireSession s).2 = none ∧ Idle c (acquireSession s).1)
        ∨ ∃ i, (acquireSession s).2 = some i ∧ Fetched c i (acquireSession s).1) := by
  obtain ⟨g, a, hrep, hclock, hnaux, hflags, -⟩ := h
  have hinits' : s.inits = c.inits := congrArg Clock.inits hclock
  rcases hrep.owns.acquireSession_cases with ⟨-, heq⟩ | ⟨i, pool, haux, hfree, hok, heq⟩
      | ⟨i, haux, heq⟩
  · rw [heq]
    obtain ⟨ho, hl, hs⟩ := hrep.log_silent (e := .error "Pool de flujos vacío")
      ⟨fun _ => rfl, rfl, rfl, rfl⟩ rfl (by decide) rfl rfl
    refine ⟨.of_logged rfl rfl rfl (fun _ _ => rfl) rfl (Event.aside_of s rfl rfl),
      Or.inl ⟨rfl, g, a, ⟨{ ho with nodes := ho.nodes }, { hl with live := hl.live },
        { hs with reach := hs.reach }⟩, ?_, hnaux, hflags, fun _ _ => trivial⟩⟩
    exact (clock_log s rfl rfl).trans hclock
  · rw [heq]
    refine ⟨.of_silent rfl rfl rfl (fun _ _ => rfl) rfl, Or.inr ⟨i, rfl, g, a,
      hrep.takeSession haux (by omega) hfree rfl hok, hclock, hnaux, hflags, rfl, ?_⟩⟩
    exact hrep.owns.cleared i (by rw [hfree]; exact List.mem_cons_self ..)
  · rw [heq]
    obtain ⟨hlive, hgone⟩ := hrep.owns.aux_apart haux
    refine ⟨.of_silent rfl rfl rfl (hrep.owns.setSession_record haux _) rfl, Or.inr ⟨i, rfl, g, a,
      hrep.setSession hlive (fun w hw heq => absurd heq (hgone w hw)) fun _ => rfl, hclock, hnaux,
      hflags, haux, ?_⟩⟩
    rw [State.setSession_self]

/-! ## The parser -/

/-- **Parsing into the session at hand.** -/
lemma Fetched.parse (h : Fetched c i s) (hinits : 1 ≤ c.inits) (p : Packet) :
    Still s (parseInto p i s).1
      ∧ (((parseInto p i s).2 = false ∧ Idle c (parseInto p i s).1)
        ∨ ((parseInto p i s).2 = true ∧ (Flow.parse p .zero).verdict = .accepted
          ∧ Called c p i (parseInto p i s).1)) := by
  obtain ⟨g, a, hrep, hclock, hnaux, hflags, haux, hzero⟩ := h
  have hinits' : s.inits = c.inits := congrArg Clock.inits hclock
  obtain ⟨hlive, hgone⟩ := hrep.owns.aux_apart haux
  have hfree : i ∉ s.ipSessionPool.free := by
    intro hmem
    have hone := hrep.owns.session_count i
    have hpos := List.count_pos_iff.mpr hmem
    rw [haux, Option.toList_some, List.count_singleton_self] at hone
    omega
  -- whatever the parser writes, the session stays outside the table
  obtain ⟨v, hv, hvflow⟩ : ∃ v : IPSession,
      v = (if (Flow.parse p .zero).stamped then
          { s.ips i with
            incoming := (Flow.parse p .zero).flow
            firstpacketTimestamp := s.lastPacketTimestamp
            lastpacketTimestamp := s.lastPacketTimestamp }
        else { s.ips i with incoming := (Flow.parse p .zero).flow })
      ∧ v.incoming = p.flow := by
    refine ⟨_, rfl, ?_⟩
    split_ifs <;> rfl
  have hrep' : Rep g a [] (s.setSession i v) :=
    hrep.setSession hlive (fun w hw heq => absurd heq (hgone w hw)) fun hmem => absurd hmem hfree
  have hclock' : (s.setSession i v).clock = c := hclock
  have hrecord := hrep.owns.setSession_record haux v
  cases hverdict : (Flow.parse p .zero).verdict with
  | ignored =>
      have heq : parseInto p i s = (s.setSession i v, false) := by
        simp only [parseInto, hzero, hverdict, hv]
      rw [heq]
      exact ⟨.of_silent rfl rfl rfl hrecord rfl,
        Or.inl ⟨rfl, g, a, hrep', hclock', hnaux, hflags, fun _ _ => trivial⟩⟩
  | malformed =>
      have heq : parseInto p i s = ({ s.setSession i v with
          countPcktsMalformed := (s.setSession i v).countPcktsMalformed + 1 }, false) := by
        simp only [parseInto, hzero, hverdict, hv]
      rw [heq]
      obtain ⟨ho, hl, hs⟩ := hrep'
      exact ⟨.of_silent rfl rfl rfl hrecord rfl,
        Or.inl ⟨rfl, g, a, ⟨{ ho with nodes := ho.nodes }, { hl with live := hl.live },
          { hs with reach := hs.reach }⟩, hclock', hnaux, hflags, fun _ _ => trivial⟩⟩
  | accepted =>
      have heq : parseInto p i s = ((s.setSession i v).log (.reached p), true) := by
        simp only [parseInto, hzero, hverdict, hv]
      rw [heq]
      refine ⟨.of_logged rfl rfl rfl hrecord rfl (Event.aside_of s rfl rfl),
        Or.inr ⟨rfl, rfl, g, a, ?_, (clock_log _ rfl rfl).trans hclock', hnaux, hflags, haux, ?_⟩⟩
      · refine hrep'.log ⟨fun _ => rfl, rfl, rfl, rfl⟩ rfl rfl hrep'.shows.reach rfl rfl rfl rfl
          ?_ (List.append_nil _).symm rfl fun h0 => ?_
        · rw [hrep'.shows.arrivals, List.append_nil]
          rfl
        · have hz : s.inits = 0 := h0
          omega
      · show ((s.setSession i v).ips i).incoming = p.flow
        rw [State.setSession_self, hvflow]

/-- `parsePacket` with a session at hand. -/
def parseWith (p : Packet) (i : SessionId) : Prog State Unit := do
  if ← Prog.atomic (parseInto p i) then
    insertFlow i
  else
    .ret ()

/-- **`parsePacket` with a session at hand.** -/
lemma guarantees_parseWith (hb : c.Below b) (hts : p.ts = c.now)
    (hnow : c.times.getLast? = some c.now) (hinits : 1 ≤ c.inits) (h : Fetched c i s) :
    Guarantees ExportStep (Sound b) (Effect i) (fun _ => Idle c) (parseWith p i) s := by
  refine .atomic_bind stable_fetched (At.sound hb) (fun s hs => ?_) h
  obtain ⟨hstill, hparse⟩ := hs.parse hinits p
  refine ⟨.still hstill, ?_⟩
  rcases hparse with ⟨hret, hidle⟩ | ⟨hret, hacc, hcalled⟩
  · rw [hret]
    exact .done stable_idle (At.sound hb) hidle
  · rw [hret]
    exact guarantees_insertFlow hb hacc hts hnow hinits hcalled

/-- **`parsePacket`.** -/
lemma guarantees_parsePacket (hb : c.Below b) (hts : p.ts = c.now)
    (hnow : c.times.getLast? = some c.now) (hinits : 1 ≤ c.inits) (h : Idle c s) :
    Guarantees ExportStep (Sound b) Effects (fun _ => Idle c) (parsePacket p) s := by
  refine .atomic_bind stable_idle (At.sound hb) (fun s hs => ?_) h
  obtain ⟨hstill, hacquire⟩ := hs.acquire hinits
  refine ⟨⟨0, .still hstill⟩, ?_⟩
  rcases hacquire with ⟨hret, hidle⟩ | ⟨i, hret, hfetched⟩
  · rw [hret]
    exact .done stable_idle (At.sound hb) hidle
  · rw [hret]
    exact (guarantees_parseWith hb hts hnow hinits hfetched).imp (fun _ _ he => ⟨i, he⟩)
      fun _ _ hs => hs

/-! ## The clock -/

lemma initData_clock (h : s.previous = 0) : (initData s).clock = s.clock.init := by
  have htimes : (initData s).times = s.times := (times_log _ _).trans (List.append_nil _)
  have hinits : (initData s).inits = s.inits + 1 := inits_log _ _
  have hinit : s.clock.init = { s.clock with
      previous := s.current, previous2 := s.previous, inits := s.inits + 1 } := if_pos h
  rw [State.clock, htimes, hinits, hinit]
  rfl

/-- The clock is set, by a packet or by the shutdown. -/
lemma Tidy.tick {K : Session Packet → Prop} (h : Tidy c K s) {e : Event} (he : e.Quiet)
    (hreached : e.reached? = none) (hnote : e.note? = none) (hfed : e.isNodeError = false)
    {t : UInt64} (ht : e.time? = some t) (u : UInt64) :
    Tidy { c with now := t, current := u, times := c.times ++ [t] } K
      (({ s with lastPacketTimestamp := t, current := u } : State).log e) := by
  obtain ⟨g, a, hrep, rfl, hnaux, hflags, hK⟩ := h
  exact ⟨g, _, hrep.tick he hreached hnote hfed ht, clock_tick s he.init ht u, hnaux, hflags, hK⟩

/-- The head of `process_packet`. -/
lemma Idle.stamp (h : Idle c s) (p : Packet) : Idle (c.stamp p) (stampClock p s) :=
  Tidy.tick h (e := .received p) ⟨fun _ => rfl, rfl, rfl, rfl⟩ rfl rfl rfl rfl p.sec

/-- Before the first call of `initData`, `previous` is 0. -/
lemma Idle.unstarted (h : Idle c s) (h0 : c.inits = 0) : c.previous = 0 := by
  obtain ⟨g, a, hrep, rfl, -⟩ := h
  exact (hrep.lives.fresh h0).1

/-- Nothing is left of the flows. -/
lemma initData_still (s : State) : Still s (initData s) := by
  have htable : ∀ i, ¬ (initData s).InTable i := by
    rintro i ⟨n, hn, -⟩
    simp [State.buckets, initData, State.log] at hn
  refine ⟨fun i hi => (htable i hi).elim, ?_, fun _ _ _ => rfl, fun i _ => ?_, [.initData], rfl, ?_⟩
  · rintro i ⟨n, hn, hdata⟩
    refine Or.inr ⟨n, ?_, hdata⟩
    rw [State.leaving, List.append_assoc]
    simp only [State.leaving, initData, State.log, List.append_nil] at hn
    exact List.mem_append_left _ hn
  · have hinits : (initData s).inits = s.inits + 1 := inits_log _ _
    exact Or.inr (Or.inr (by omega))
  · rw [List.forall_mem_singleton]
    exact Event.aside_of s rfl rfl

/-- `if (previous == 0) initData();`: no flow is in the table that was there before. -/
lemma Idle.first (h : Idle c s) :
    Still s (firstPacket s).1 ∧ Tidy c.init (fun _ => c.previous ≠ 0) (firstPacket s).1
      ∧ (firstPacket s).2 = decide (c.init.previous < c.init.current) := by
  obtain ⟨g, a, hrep, rfl, hnaux, hflags, -⟩ := h
  by_cases hp : s.previous = 0
  · have heq : firstPacket s = (initData s, decide ((initData s).previous < (initData s).current)) := by
      simp only [firstPacket, hp, if_true]
    have hclock : (initData s).clock = s.clock.init := initData_clock hp
    rw [heq]
    obtain ⟨g', a', hrep', hlive⟩ := hrep.initData hnaux rfl
    refine ⟨initData_still s, ⟨g', a', hrep', hclock, hnaux, rfl, fun S hS => ?_⟩, ?_⟩
    · have hmap := hrep'.shows.live
      rw [hlive, List.map_nil, eq_comm, List.map_eq_nil_iff] at hmap
      rw [hmap] at hS
      exact absurd hS List.not_mem_nil
    · rw [← hclock]
      rfl
  · have heq : firstPacket s = (s, decide (s.previous < s.current)) := by
      simp only [firstPacket, hp, if_false]
    have hclock : s.clock.init = s.clock := if_neg hp
    rw [heq, hclock]
    exact ⟨.of_silent rfl rfl rfl (fun _ _ => rfl) rfl, ⟨g, a, hrep, rfl, hnaux, hflags, fun _ _ => hp⟩,
      rfl⟩

lemma countSeconds_still (s : State) : Still s (countSeconds s) := by
  unfold countSeconds
  simp only
  split_ifs
  · exact .of_logged rfl rfl rfl (fun _ _ => rfl) rfl (Event.aside_of s rfl rfl)
  · exact .of_silent rfl rfl rfl (fun _ _ => rfl) rfl

/-- The counter of `perSecOps` and its line in the log. -/
lemma Idle.count (h : Idle c s) (hinits : 1 ≤ c.inits) : Idle c (countSeconds s) := by
  obtain ⟨g, a, hrep, hclock, hnaux, hflags, -⟩ := h
  have hinits' : s.inits = c.inits := congrArg Clock.inits hclock
  unfold countSeconds
  simp only
  split_ifs
  · refine ⟨g, a, (hrep.setSeconds (by omega) s.previous s.previous2 0).log_silent
      ⟨fun _ => rfl, rfl, rfl, rfl⟩ rfl rfl rfl rfl, ?_, hnaux, hflags, fun _ _ => trivial⟩
    exact (clock_log _ rfl rfl).trans hclock
  · exact ⟨g, a, hrep.setSeconds (by omega) s.previous s.previous2 (s.nodeSecCounter + 1), hclock,
      hnaux, hflags, fun _ _ => trivial⟩

/-- The assignments of `perSecOps`. -/
lemma Swept.advance {K : Session Packet → Prop} (h : Swept c K s) (hinits : 1 ≤ c.inits) :
    Swept c.advance K { s with previous2 := s.previous, previous := s.current } := by
  obtain ⟨g, a, hrep, rfl, hswept⟩ := h
  exact ⟨g, a, hrep.setSeconds hinits s.current s.previous s.nodeSecCounter, rfl, hswept⟩

lemma Swept.tidy {K : Session Packet → Prop} (h : Swept c K s) : Tidy c K s := by
  obtain ⟨g, a, hrep, hclock, hnaux, hflags, hK, -⟩ := h
  exact ⟨g, a, hrep, hclock, hnaux, hflags, hK⟩

lemma Tidy.idle {K : Session Packet → Prop} (h : Tidy c K s) : Idle c s := by
  obtain ⟨g, a, hrep, hclock, hnaux, hflags, -⟩ := h
  exact ⟨g, a, hrep, hclock, hnaux, hflags, fun _ _ => trivial⟩

lemma sameSecond_still (s : State) : Still s (sameSecond s) := by
  unfold sameSecond
  split_ifs
  · exact .of_silent rfl rfl rfl (fun _ _ => rfl) rfl
  · exact .of_silent rfl rfl rfl (fun _ _ => rfl) rfl
  · exact .of_silent rfl rfl rfl (fun _ _ => rfl) rfl

/-- The branch in which no second has passed. -/
lemma Tidy.stay {K : Session Packet → Prop} (h : Tidy c K s) (hinits : 1 ≤ c.inits) :
    Tidy c.stay K (sameSecond s) := by
  obtain ⟨g, a, hrep, rfl, hnaux, hflags, hK⟩ := h
  by_cases h1 : s.previous = s.current
  · have heq : sameSecond s = { s with previous := s.current } := if_pos h1
    have hstay : s.clock.stay = s.clock := if_pos h1
    rw [heq, hstay]
    refine ⟨g, a, hrep.setSeconds hinits s.current s.previous2 s.nodeSecCounter, ?_, hnaux, hflags,
      hK⟩
    exact congrArg (fun x => { s.clock with previous := x }) h1.symm
  · by_cases h2 : s.previous2 < s.current
    · have heq : sameSecond s = { s with previous := s.previous2 } :=
        (if_neg h1).trans (if_pos h2)
      have hstay : s.clock.stay = { s.clock with previous := s.previous2 } :=
        (if_neg h1).trans (if_pos h2)
      rw [heq, hstay]
      exact ⟨g, a, hrep.setSeconds hinits s.previous2 s.previous2 s.nodeSecCounter, rfl, hnaux,
        hflags, hK⟩
    · have heq : sameSecond s = s := (if_neg h1).trans (if_neg h2)
      have hstay : s.clock.stay = s.clock := (if_neg h1).trans (if_neg h2)
      rw [heq, hstay]
      exact ⟨g, a, hrep, rfl, hnaux, hflags, hK⟩

/-- **`perSecOps`.** -/
lemma guarantees_perSecOps (hb : c.Below b) (hinits : 1 ≤ c.inits) (h : Idle c s) :
    Guarantees ExportStep (Sound b) Still (fun _ => Swept c.advance fun _ => True) perSecOps s := by
  refine .act_bind stable_idle (At.sound hb) (fun s hs => ⟨countSeconds_still s, ?_⟩) h
  refine .bind (guarantees_cleanupFlows hb (hs.count hinits)) fun _ s hs => ?_
  refine .sec stable_swept (At.sound hb) (fun s hs => ?_) hs
  exact ⟨.of_silent rfl rfl rfl (fun _ _ => rfl) rfl,
    .done stable_swept (At.sound (c := c.advance) ⟨hb.times, hb.inits⟩) (hs.advance hinits)⟩

/-! ## `process_packet` -/

/-- `process_packet` up to the parser: the clock and the once-a-second work. -/
def keepTime (p : Packet) : Prog State Unit := do
  Prog.act (stampClock p)
  if ← Prog.atomic firstPacket then
    perSecOps
  else
    Prog.act sameSecond

/-- The end of `process_packet`. -/
def parseFrame (p : Packet) : Prog State Unit :=
  if 14 ≤ p.caplen then parsePacket p else .ret ()

lemma processPacket_eq (p : Packet) :
    processPacket p = keepTime p >>= fun _ => parseFrame p := by
  refine congrArg (Prog.sec _) (funext fun s => congrArg (Prog.sec _) (funext fun s' => ?_))
  show (if (firstPacket s').2 = true then _ else _)
    = Prog.bind (if (firstPacket s').2 = true then _ else _) _
  cases (firstPacket s').2 with
  | false => rfl
  | true => rfl

/-- When `process_packet` comes to the parser.  If `initData` was called the table is empty, and if a
second has passed the oldest flow has not expired. -/
def Opened (c : Clock) (p : Packet) (s : State) : Prop :=
  Tidy (c.step p) (fun _ => c.previous ≠ 0) s
    ∧ ((c.stamp p).init.previous < (c.stamp p).init.current → Swept (c.step p) (fun _ => True) s)

lemma stable_opened : Stable ExportStep (Opened c p) :=
  fun _ _ h hs => ⟨stable_tidy h.1 hs, fun hlt => stable_swept (h.2 hlt) hs⟩

lemma Opened.sound (hb : (c.step p).Below b) (s : State) (h : Opened c p s) : Sound b s :=
  At.sound hb s h.1

/-- At the parser `initData` has been called. -/
lemma Idle.started (h : Idle c s) (p : Packet) : 1 ≤ (c.stamp p).init.inits := by
  by_cases hp : c.previous = 0
  · rw [Clock.init, if_pos ((c.stamp_previous p).trans hp)]
    exact Nat.le_add_left ..
  · rw [Clock.init, if_neg (fun h0 => hp ((c.stamp_previous p).symm.trans h0)), Clock.stamp_inits]
    exact Nat.one_le_iff_ne_zero.mpr fun h0 => hp (h.unstarted h0)

/-- The clock is set to the time of the packet. -/
lemma stamped_still (t u : UInt64) (p : Packet) (s : State) :
    Still s ({ s with lastPacketTimestamp := t, current := u }.log (.received p)) :=
  .of_logged rfl rfl rfl (fun _ _ => rfl) rfl (Event.aside_of s rfl rfl)

lemma stampClock_still (p : Packet) (s : State) : Still s (stampClock p s) :=
  stamped_still p.ts p.sec p s

/-- **`process_packet` up to the parser.** -/
lemma guarantees_keepTime (hb : (c.step p).Below b) (h : Idle c s) :
    Guarantees ExportStep (Sound b) Still (fun _ => Opened c p) (keepTime p) s := by
  have hinit : (c.stamp p).init.Below b := (c.below_step p).trans hb
  have hstamp : (c.stamp p).Below b := (Clock.below_init _).trans hinit
  have hstart : c.Below b := (c.below_stamp p).trans hstamp
  have hstarted := h.started p
  refine .act_bind stable_idle (At.sound hstart) (fun s hs => ⟨stampClock_still p s, ?_⟩) h
  refine .atomic_bind stable_idle (At.sound hstamp) (fun s hs => ?_) (hs.stamp p)
  obtain ⟨hstill, htidy, hret⟩ := hs.first
  rw [Clock.stamp_previous] at htidy
  rw [hret]
  refine ⟨hstill, ?_⟩
  by_cases hlt : (c.stamp p).init.previous < (c.stamp p).init.current
  · have hstep : c.step p = (c.stamp p).init.advance := if_pos hlt
    have hp : c.previous ≠ 0 := by
      intro h0
      rw [Clock.init, if_pos ((c.stamp_previous p).trans h0)] at hlt
      exact lt_irrefl _ hlt
    simp only [hlt, decide_true, if_true]
    refine (guarantees_perSecOps hinit hstarted htidy.idle).imp (fun _ _ hs => hs) fun _ s hs => ?_
    rw [← hstep] at hs
    obtain ⟨g, a, hrep, hclock, hnaux, hflags, -⟩ := hs.tidy
    exact ⟨⟨g, a, hrep, hclock, hnaux, hflags, fun _ _ => hp⟩, fun _ => hs⟩
  · have hstep : c.step p = (c.stamp p).init.stay := if_neg hlt
    simp only [hlt, decide_false]
    refine .sec stable_tidy (At.sound hinit) (fun s hs => ⟨sameSecond_still s, ?_⟩) htidy
    refine .done stable_opened (Opened.sound hb) ⟨?_, fun h => absurd h hlt⟩
    rw [hstep]
    exact hs.stay hstarted

lemma Clock.step_last (c : Clock) (p : Packet) : (c.step p).times.getLast? = some (c.step p).now := by
  rw [step_times, step_now, List.getLast?_concat]

/-- **The end of `process_packet`.** -/
lemma guarantees_parseFrame (hb : c.Below b) (hts : p.ts = c.now)
    (hnow : c.times.getLast? = some c.now) (hinits : 1 ≤ c.inits) (h : Idle c s) :
    Guarantees ExportStep (Sound b) Effects (fun _ => Idle c) (parseFrame p) s := by
  unfold parseFrame
  split_ifs
  · exact guarantees_parsePacket hb hts hnow hinits h
  · exact .done stable_idle (At.sound hb) h

/-- **`process_packet`** keeps the meaning of the store, and takes the clock one step on. -/
lemma guarantees_processPacket (hb : (c.step p).Below b) (h : Idle c s) :
    Guarantees ExportStep (Sound b) Effects (fun _ => Idle (c.step p)) (processPacket p) s := by
  have hinits : 1 ≤ (c.step p).inits := by
    rw [Clock.step_inits]
    exact h.started p
  rw [processPacket_eq]
  refine .bind ((guarantees_keepTime hb h).imp (fun _ _ hs => ⟨0, .still hs⟩) fun _ _ hs => hs)
    fun _ s hs => ?_
  exact guarantees_parseFrame hb (c.step_now p).symm (c.step_last p) hinits hs.1.idle

/-! ## The shutdown -/

/-- `reset_flow_table` sets the clock. -/
def Clock.reset (c : Clock) : Clock :=
  { c with now := infinity, times := c.times ++ [infinity] }

lemma Clock.below_reset (c : Clock) : c.Below c.reset :=
  ⟨List.prefix_append _ _, Nat.le_refl _⟩

/-- `stop_et = 1`. -/
def Clock.shut (c : Clock) : Clock :=
  { c.reset with stop := true }

/-- The clock was never past 2^63. -/
def Clock.Early (c : Clock) : Prop :=
  ∀ t ∈ c.times, t.toNat < 2 ^ 63

/-- The export thread ends with nothing left to export. -/
def Drained (s : State) : Prop :=
  s.exporter = .finished → s.expiredFlowList = []

/-- After the shutdown: nothing is left in the table. -/
def Shut (c : Clock) (s : State) : Prop :=
  At c.shut [] (fun g _ s => s.naux = none ∧ s.flagsExpiredFlowList = [] ∧ (c.Early → g.live = [])) s
    ∧ Drained s

lemma stable_drained : Stable ExportStep Drained := by
  rintro s s' h rfl hfin
  cases hpc : s.exporter with
  | loop =>
      rw [exportStep, hpc] at hfin
      simp only at hfin
      split_ifs at hfin
      cases hexp : s.expiredFlowList with
      | nil => simp [popExpired_nil hexp] at hfin
      | cons n rest => simp [popExpired_cons hexp] at hfin
  | popped drain n =>
      rw [exportStep, hpc] at hfin
      simp only at hfin
      split at hfin
      · exact absurd (hpc.symm.trans hfin) (by simp)
      · exact absurd hfin (by simp [State.log])
  | printed drain n i =>
      rw [exportStep, hpc] at hfin
      exact absurd hfin (by simp)
  | released drain n =>
      rw [exportStep, hpc] at hfin
      cases drain
      · exact absurd hfin (by simp)
      · exact absurd hfin (by simp)
  | draining =>
      rw [exportStep, hpc] at hfin ⊢
      cases hexp : s.expiredFlowList with
      | nil => simp only [popExpired_nil hexp, hexp]
      | cons n rest => simp [popExpired_cons hexp] at hfin
  | finished =>
      rw [exportStep, hpc]
      exact h hpc

lemma stable_shut : Stable ExportStep (Shut c) := by
  rintro s s' ⟨hat, hdrained⟩ hstep
  refine ⟨stable_at ?_ hat hstep, stable_drained hdrained hstep⟩
  rintro g a s g' s' hf ⟨h1, h2, h3⟩
  exact ⟨hf.naux.trans h1, hf.flags.trans h2, fun hearly => hf.live.trans (h3 hearly)⟩

lemma Shut.sound (hb : c.reset.Below b) (s : State) (h : Shut c s) : Sound b s :=
  At.sound (c := c.shut) ⟨hb.times, hb.inits⟩ s h.1

/-- The last packet of a session was before 2^63, if the clock was. -/
def Early (c : Clock) (S : Session Packet) : Prop :=
  c.Early → (rules.last S).toNat < 2 ^ 63

/-- At the end of time every session has expired. -/
lemma stale_infinity {t : UInt64} (h : t.toNat < 2 ^ 63) : Stale t infinity := by
  have hinf : infinity.toNat = 2 ^ 64 - 1 := rfl
  have hle : t ≤ infinity := by
    rw [UInt64.le_iff_toNat_le]
    omega
  have hexp : expirationFlowTime.toNat = 90000000 := rfl
  rw [stale_iff hle]
  omega

/-- `reset_flow_table` sets the clock to the end of time. -/
lemma Idle.reset (h : Idle c s) :
    Tidy c.reset (Early c) ({ s with lastPacketTimestamp := infinity }.log .reset) := by
  obtain ⟨g, a, hrep, rfl, hnaux, hflags, -⟩ := h
  have hK : Tidy s.clock (Early s.clock) s := by
    refine ⟨g, a, hrep, rfl, hnaux, hflags, fun S hS hearly => ?_⟩
    have hmem := hrep.shows.reach.last_mem_times S hS
    rw [hrep.shows.times] at hmem
    exact hearly _ hmem
  exact hK.tick (e := .reset) ⟨fun _ => rfl, rfl, rfl, rfl⟩ rfl rfl rfl rfl s.current

/-- `stop_et = 1`. -/
lemma Swept.shut (h : Swept c.reset (Early c) s) (hstop : c.stop = false) :
    Shut c { s with stopEt := true } := by
  obtain ⟨g, a, hrep, hclock, hnaux, hflags, hK, hlast⟩ := h
  have hnow : a.now = infinity := hrep.shows.now.trans (congrArg Clock.now hclock)
  have hstop' : s.stopEt = false := (congrArg Clock.stop hclock).trans hstop
  have hlive : c.Early → g.live = [] := by
    intro hearly
    have haLive : a.live = [] := by
      rcases List.eq_nil_or_concat a.live with hnil | ⟨L, S, hS⟩
      · exact hnil
      · rw [List.concat_eq_append] at hS
        have hlt := hK S (by simp [hS]) hearly
        refine absurd ?_ (hlast S (by rw [hS, List.getLast?_concat]))
        rw [hnow]
        exact stale_infinity hlt
    have hmap := hrep.shows.live
    rwa [haLive, List.map_nil, List.map_eq_nil_iff] at hmap
  have hdrains : s.exporter.drains = true → False := by
    intro hd
    rw [hrep.owns.drains hd] at hstop'
    exact absurd hstop' (by simp)
  obtain ⟨ho, hl, hs⟩ := hrep
  refine ⟨⟨g, a, ⟨{ ho with drains := fun _ => rfl }, { hl with live := hl.live },
    { hs with reach := hs.reach }⟩, ?_, hnaux, hflags, hlive⟩, fun hfin => ?_⟩
  · exact congrArg (fun x => { x with stop := true }) hclock
  · have hfin' : s.exporter = .finished := hfin
    exact (hdrains (by rw [hfin']; rfl)).elim

/-- **`reset_flow_table`.** -/
lemma guarantees_resetFlowTable (hb : c.reset.Below b) (h : Idle c s) :
    Guarantees ExportStep (Sound b) Still (fun _ => Swept c.reset (Early c)) resetFlowTable s := by
  have hstart : c.Below b := c.below_reset.trans hb
  refine .act_bind stable_idle (At.sound hstart) (fun s hs => ⟨?_, ?_⟩) h
  · exact .of_logged rfl rfl rfl (fun _ _ => rfl) rfl (Event.aside_of s rfl rfl)
  · exact guarantees_cleanupFlows hb hs.reset

/-- **The shutdown** empties the table. -/
lemma guarantees_capturaSenial (hb : c.reset.Below b) (hstop : c.stop = false) (h : Idle c s) :
    Guarantees ExportStep (Sound b) Still (fun _ => Shut c) capturaSenial s := by
  refine .bind (guarantees_resetFlowTable hb h) fun _ s hs => ?_
  refine .sec stable_swept (At.sound hb) (fun s hs => ?_) hs
  exact ⟨.of_silent rfl rfl rfl (fun _ _ => rfl) rfl,
    .done stable_shut (Shut.sound hb) (hs.shut hstop)⟩

end Process

end Flow
