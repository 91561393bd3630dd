import XdpFlows.Flow.Process

/-!
# Runs of the monitor

The invariant of all runs, for any packets and any interleaving of the two threads: between two
packets the monitor is idle with its clock where the packets have brought it, inside `process_packet`
and inside the shutdown it is safe, and after the shutdown it is shut (`Run.inPhase`).  Hence at every
moment the memory means something (`Run.sound`).

Every step of a run has one of the three effects on the flows (`Run.effects`), so what these keep holds
at every moment (`Run.invariant`).
-/

namespace Flow

open SessionWindow Sections

/-! ## The start -/

/-- The layout of the empty store. -/
def Layout.empty : Layout where
  live := []
  born := []
  expired := []
  flags := []
  hand := []
  lostNodes := []
  lostSessions := []

lemma rep_initialState : Rep .empty (Rules.empty 0) [] initialState := by
  have hfree : ∀ size, (Pool.alloc size).free.Perm (List.range size) :=
    fun _ => List.reverse_perm _
  have hnone : ∀ {α : Type} {x : α} {P : Prop}, x ∈ ([] : List α) → P :=
    fun h => absurd h List.not_mem_nil
  refine ⟨⟨?_, ?_, Pool.ok_alloc (by decide), Pool.ok_alloc (by decide), rfl, rfl, rfl, rfl,
    fun _ he => hnone he, fun _ hw => hnone hw, .refl _, fun _ => rfl, fun _ => rfl, fun _ _ => rfl,
    fun n hn => ?_, fun hd => ?_, rfl⟩,
    ⟨fun _ he => hnone he, fun _ hw => hnone hw, fun i _ _ _ => Complete.nil, rfl, fun _ => rfl,
      fun _ => ⟨rfl, rfl⟩, fun _ => ⟨rfl, rfl, rfl, rfl, rfl, rfl, rfl, rfl⟩⟩,
    ⟨.refl, rfl, rfl, rfl, rfl, rfl, rfl, fun _ => ⟨rfl, rfl, rfl⟩⟩⟩
  · simpa [Layout.nodes, Layout.empty, initialState, ExportPc.node] using hfree maxPoolNode
  · simpa [Layout.sessions, Layout.empty, initialState, ExportPc.printedSession] using hfree maxPoolSession
  · exact absurd hn (by simp [initialState])
  · exact absurd hd (by simp [initialState, ExportPc.drains])

lemma idle_initialState : Idle (Clock.after []) initialState :=
  ⟨_, _, rep_initialState, rfl, rfl, rfl, fun _ _ => trivial⟩

/-! ## The invariant -/

/-- What holds in each phase of a run over the packets `ps`. -/
def InPhase (ps : List Packet) (s : State) : Phase → Prop
  | .idle => Idle (Clock.after ps) s
  | .busy rest =>
      Safe ExportStep (Sound (Clock.after ps)) (fun _ => Idle (Clock.after ps)) rest s
  | .closing rest =>
      Safe ExportStep (Sound (Clock.after ps).reset) (fun _ => Shut (Clock.after ps)) rest s
  | .closed => Shut (Clock.after ps) s

lemma Clock.after_stop (ps : List Packet) : (after ps).stop = false := by
  induction ps using List.reverseRecOn with
  | nil => rfl
  | append_singleton ps p ih =>
      rw [after_concat, step_stop, ih]

/-- **The invariant of all runs.** -/
theorem Run.inPhase {ps : List Packet} {s : State} {f : Phase} (h : Run ps s f) :
    InPhase ps s f := by
  induction h with
  | start => exact idle_initialState
  | @packet ps s p _ ih =>
      show Safe _ _ _ _ _
      rw [Clock.after_concat]
      exact (guarantees_processPacket (.refl _) ih).safe
  | busy _ ih => exact ih.sec_step
  | back _ ih => exact ih.result
  | @shutdown ps s _ ih => exact (guarantees_capturaSenial (.refl _) (Clock.after_stop ps) ih).safe
  | closing _ ih => exact ih.sec_step
  | close _ ih => exact ih.result
  | @«export» ps s s' f _ hs ih =>
      cases f with
      | idle => exact stable_idle ih hs
      | busy rest => exact ih.env_step hs
      | closing rest => exact ih.env_step hs
      | closed => exact stable_shut ih hs

/-- **At every moment of every run the memory means something.** -/
theorem Run.sound {ps : List Packet} {s : State} {f : Phase} (h : Run ps s f) :
    Sound (Clock.after ps).reset s := by
  have hin := h.inPhase
  cases f with
  | idle =>
      have hsound : ∀ s, Idle (Clock.after ps) s → Sound (Clock.after ps).reset s :=
        At.sound (Clock.below_reset _)
      exact hsound s hin
  | busy rest =>
      obtain ⟨hrep, hbelow⟩ := Safe.now hin
      exact ⟨hrep, hbelow.trans (Clock.below_reset _)⟩
  | closing rest => exact Safe.now hin
  | closed => exact Shut.sound (.refl _) s hin

/-! ## Steps -/

/-- Where a run has got to. -/
structure Config where
  packets : List Packet
  state : State
  phase : Phase

/-- The steps of a run. -/
inductive Turn : Config → Config → Prop where
  | packet {ps : List Packet} {s : State} (p : Packet) :
      Turn ⟨ps, s, .idle⟩ ⟨ps ++ [p], s, .busy (processPacket p)⟩
  | busy {ps : List Packet} {s : State} {u : State → State} {k : State → Prog State Unit} :
      Turn ⟨ps, s, .busy (.sec u k)⟩ ⟨ps, u s, .busy (k s)⟩
  | back {ps : List Packet} {s : State} : Turn ⟨ps, s, .busy (.ret ())⟩ ⟨ps, s, .idle⟩
  | shutdown {ps : List Packet} {s : State} : Turn ⟨ps, s, .idle⟩ ⟨ps, s, .closing capturaSenial⟩
  | closing {ps : List Packet} {s : State} {u : State → State} {k : State → Prog State Unit} :
      Turn ⟨ps, s, .closing (.sec u k)⟩ ⟨ps, u s, .closing (k s)⟩
  | close {ps : List Packet} {s : State} : Turn ⟨ps, s, .closing (.ret ())⟩ ⟨ps, s, .closed⟩
  | export {ps : List Packet} {s s' : State} {f : Phase} (hs : ExportStep s s') :
      Turn ⟨ps, s, f⟩ ⟨ps, s', f⟩

lemma Turn.packets_subset {x y : Config} (h : Turn x y) : x.packets ⊆ y.packets := by
  cases h with
  | packet p => exact List.subset_append_left _ _
  | _ => exact List.Subset.refl _

/-- A run takes a step. -/
lemma Run.turn {x y : Config} (h : Run x.packets x.state x.phase) (hturn : Turn x y) :
    Run y.packets y.state y.phase := by
  cases hturn with
  | packet p => exact h.packet p
  | busy => exact h.busy
  | back => exact h.back
  | shutdown => exact h.shutdown
  | closing => exact h.closing
  | close => exact h.close
  | «export» hs => exact h.export hs

/-- What is left of `process_packet` has one of the effects in each section, and what is left of the
shutdown puts no packet anywhere. -/
def Guarded (ps : List Packet) (s : State) : Phase → Prop
  | .busy rest => Guarantees ExportStep (Sound (Clock.after ps)) Effects
      (fun _ => Idle (Clock.after ps)) rest s
  | .closing rest => Guarantees ExportStep (Sound (Clock.after ps).reset) Still
      (fun _ => Shut (Clock.after ps)) rest s
  | _ => True

lemma Run.guarded {ps : List Packet} {s : State} {f : Phase} (h : Run ps s f) : Guarded ps s f := by
  induction h with
  | start => trivial
  | @packet ps s p h _ =>
      have hidle : Idle (Clock.after ps) s := h.inPhase
      show Guarantees _ _ _ _ _ _
      rw [Clock.after_concat]
      exact guarantees_processPacket (.refl _) hidle
  | busy _ ih => exact ih.sec_step.2
  | back _ _ => trivial
  | @shutdown ps s h _ =>
      have hidle : Idle (Clock.after ps) s := h.inPhase
      exact guarantees_capturaSenial (.refl _) (Clock.after_stop ps) hidle
  | closing _ ih => exact ih.sec_step.2
  | close _ _ => trivial
  | @«export» ps s s' f _ hs ih =>
      cases f with
      | idle => trivial
      | busy rest => exact ih.env_step hs
      | closing rest => exact ih.env_step hs
      | closed => trivial

/-- **What a step of a run does to the flows.**  Packets are put into them only inside `process_packet`,
where the clock was set by packets. -/
theorem Run.effects {x y : Config} (h : Run x.packets x.state x.phase) (hturn : Turn x y) :
    Still x.state y.state
      ∨ (Effects x.state y.state ∧ ∀ t ∈ x.state.times, t ∈ x.packets.map Packet.ts) := by
  have hsame : ∀ s, Still s s := fun _ => .of_silent rfl rfl rfl (fun _ _ => rfl) rfl
  cases hturn with
  | packet _ => exact .inl (hsame _)
  | @busy ps s u k =>
      have hguarded : Guarantees _ _ _ _ _ _ := h.guarded
      refine .inr ⟨hguarded.sec_step.1, fun t ht => ?_⟩
      rw [← Clock.after_times]
      exact hguarded.now.2.times.subset ht
  | back => exact .inl (hsame _)
  | shutdown => exact .inl (hsame _)
  | closing =>
      have hguarded : Guarantees _ _ _ _ _ _ := h.guarded
      exact .inl hguarded.sec_step.1
  | close => exact .inl (hsame _)
  | «export» hs =>
      obtain ⟨⟨g, a, pend, hrep⟩, -⟩ := h.sound
      rw [hs]
      exact .inl hrep.owns.exportStep_still

/-- **What the effects keep holds at every moment of every run**, where `T` is what is known of the times
of the packets. -/
theorem Run.invariant {T : UInt64 → Prop} {I : State → Prop} (h0 : I initialState)
    (hstep : ∀ s s', (∀ t ∈ s.times, T t) → I s → Effects s s' → I s')
    (hstill : ∀ s s', I s → Still s s' → I s') {ps : List Packet} {s : State} {f : Phase}
    (h : Run ps s f) (hT : ∀ p ∈ ps, T p.ts) : I s := by
  have hturn : ∀ {x y : Config}, Run x.packets x.state x.phase → Turn x y →
      (∀ p ∈ x.packets, T p.ts) → I x.state → I y.state := by
    intro x y hx ht hT hI
    rcases hx.effects ht with hs | ⟨he, htimes⟩
    · exact hstill _ _ hI hs
    · refine hstep _ _ (fun t ht => ?_) hI he
      obtain ⟨p, hp, rfl⟩ := List.mem_map.mp (htimes t ht)
      exact hT p hp
  induction h with
  | start => exact h0
  | packet _ _ ih => exact ih fun q hq => hT q (List.mem_append_left _ hq)
  | busy h ih => exact hturn (x := ⟨_, _, _⟩) h .busy hT (ih hT)
  | back _ ih => exact ih hT
  | shutdown _ ih => exact ih hT
  | closing h ih => exact hturn (x := ⟨_, _, _⟩) h .closing hT (ih hT)
  | close _ ih => exact ih hT
  | «export» h hs ih => exact hturn (x := ⟨_, _, _⟩) h (.export hs) hT (ih hT)

/-- Between two packets and after the shutdown no packet is on its way into the store. -/
lemma Run.settled {ps : List Packet} {s : State} {f : Phase} (h : Run ps s f)
    (hf : f = .idle ∨ f = .closed) :
    ∃ g a, Rep g a [] s ∧ s.naux = none ∧ s.inits = (Clock.after ps).inits := by
  rcases hf with rfl | rfl
  · obtain ⟨g, a, hrep, hclock, hnaux, -⟩ := h.inPhase
    exact ⟨g, a, hrep, hnaux, congrArg Clock.inits hclock⟩
  · obtain ⟨⟨g, a, hrep, hclock, hnaux, -⟩, -⟩ := h.inPhase
    exact ⟨g, a, hrep, hnaux, congrArg Clock.inits hclock⟩

/-- The export thread takes some steps. -/
lemma Run.exports {ps : List Packet} {s : State} {f : Phase} (h : Run ps s f) (m : ℕ) :
    Run ps (exportStep^[m] s) f := by
  induction m with
  | zero => exact h
  | succ m ih =>
      rw [Function.iterate_succ_apply']
      exact ih.export rfl

/-! ## Runs without interference -/

/-- A UDP datagram from port `port` at the given time. -/
def datagram (port : UInt8) (sec usec : UInt64) : Packet where
  bytes n := match n with
    | 12 => 0x08
    | 14 => 0x45
    | 17 => 28
    | 23 => 17
    | 35 => port
    | _ => 0
  tvSec := sec
  tvUsec := usec
  caplen := 60
  len := 60

/-- The process thread goes on alone. -/
lemma Run.finish {ps : List Packet} {s : State} {prog : Prog State Unit}
    (h : Run ps s (.busy prog)) : Run ps (prog.run s).1 .idle := by
  induction prog generalizing s with
  | ret a => exact h.back
  | sec u k ih => exact ih s h.busy

/-- The process thread goes on alone for a while. -/
lemma Run.partway {α : Type} {ps : List Packet} {s : State} {prog : Prog State α}
    {rest : α → Prog State Unit} (h : Run ps s (.busy (prog >>= rest))) :
    Run ps (prog.run s).1 (.busy (rest (prog.run s).2)) := by
  induction prog generalizing s with
  | ret a => exact h
  | sec u k ih => exact ih s h.busy

/-- The shutdown goes on alone. -/
lemma Run.finishClosing {ps : List Packet} {s : State} {prog : Prog State Unit}
    (h : Run ps s (.closing prog)) : Run ps (prog.run s).1 .closed := by
  induction prog generalizing s with
  | ret a => exact h.close
  | sec u k ih => exact ih s h.closing

/-- What the packets `ps` leave behind if the export thread never runs. -/
def monitor (ps : List Packet) : State :=
  ps.foldl (fun s p => ((processPacket p).run s).1) initialState

lemma run_monitor (ps : List Packet) : Run ps (monitor ps) .idle := by
  induction ps using List.reverseRecOn with
  | nil => exact .start
  | append_singleton ps p ih =>
      rw [monitor, List.foldl_append]
      exact (ih.packet p).finish

/-- The shutdown after that. -/
lemma run_shutdown (ps : List Packet) : Run ps (capturaSenial.run (monitor ps)).1 .closed :=
  (run_monitor ps).shutdown.finishClosing

end Flow
