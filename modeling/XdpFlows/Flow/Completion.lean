import XdpFlows.Flow.Delivery
import XdpFlows.Flow.Handover

/-!
# What is left after the shutdown

`used_session` is the number of sessions outside the pool at every moment, whatever the two threads do.
When the export thread has ended after the shutdown, every node and every session is back in its pool,
but for the session `parsePacket` keeps for the next packet (`everything_returns`), unless `initData` was
called again and has dropped some.
-/

namespace Flow

open SessionWindow Sections

/-! ## The counter -/

section Counter

variable {g : Layout} {s : State} {ps : List Packet} {f : Phase} {x y : Config}

/-- `used_session` is what the pool lacks. -/
def Tallied (s : State) : Prop :=
  s.usedSession + s.ipSessionPool.freeCount = maxPoolSession

lemma Run.tallied_process (h : Run x.packets x.state x.phase) (hturn : ProcessTurn x y)
    (ht : Tallied x.state) : Tallied y.state := by
  rcases (h.supplying.turn hturn).2 with hs | ⟨-, heq, -⟩
  · obtain ⟨⟨g, a, pend, hrep⟩, -⟩ := h.sound
    obtain ⟨-, hpos⟩ := hrep.owns.sessionPool.count
    rw [Tallied] at ht ⊢
    rcases hs.sessions with ⟨hused, hfree⟩ | ⟨hused, hfree⟩
    · omega
    · omega
  · rw [heq]
    exact ht

/-- The export thread counts the session it gives back. -/
lemma Owns.tallied_export (h : Owns g s) (ht : Tallied s) : Tallied (exportStep s) := by
  have hpop : ∀ drain idle, Tallied (popExpired drain idle s) := by
    intro drain idle
    rcases popExpired_cases drain idle s with ⟨-, heq⟩ | ⟨n, rest, -, heq⟩
    · rw [heq]
      exact ht
    · rw [heq]
      exact ht
  cases hpc : s.exporter with
  | loop =>
      rw [exportStep, hpc]
      simp only
      split_ifs
      · exact ht
      · exact hpop _ _
  | popped drain n =>
      rw [exportStep, hpc]
      simp only
      split
      · exact ht
      · exact ht
  | printed drain n i =>
      have hlength := h.session_length
      have hprinted : s.exporter.printedSession = [i] := by rw [hpc]; rfl
      rw [hprinted, List.length_singleton] at hlength
      obtain ⟨q, hq, hfree, hok⟩ := h.sessionPool.release (by omega) i
      have hcount := h.sessionPool.freeCount
      have hcount' := hok.freeCount
      rw [hfree, List.length_append, List.length_singleton] at hcount'
      rw [exportStep, hpc]
      simp only [releaseIPSession, State.setSession, hq]
      rw [Tallied] at ht ⊢
      simp only
      omega
  | released drain n =>
      rw [exportStep, hpc]
      simp only [releaseNodel]
      split
      · exact ht
      · exact ht
  | draining =>
      rw [exportStep, hpc]
      exact hpop _ _
  | finished =>
      rw [exportStep, hpc]
      exact ht

lemma Run.tallied (h : Run ps s f) : Tallied s := by
  induction h with
  | start => rfl
  | @packet ps s p h ih => exact h.tallied_process (x := ⟨ps, s, _⟩) (.packet p) ih
  | @busy ps s u k h ih => exact h.tallied_process (x := ⟨ps, s, _⟩) .busy ih
  | @back ps s h ih => exact h.tallied_process (x := ⟨ps, s, _⟩) .back ih
  | @shutdown ps s h ih => exact h.tallied_process (x := ⟨ps, s, _⟩) .shutdown ih
  | @closing ps s u k h ih => exact h.tallied_process (x := ⟨ps, s, _⟩) .closing ih
  | @close ps s h ih => exact h.tallied_process (x := ⟨ps, s, _⟩) .close ih
  | «export» h hs ih =>
      obtain ⟨⟨g, a, pend, hrep⟩, -⟩ := h.sound
      rw [hs]
      exact hrep.owns.tallied_export ih

end Counter

/-! ## The end -/

section End

variable {c : Clock} {ps : List Packet} {s : State}

/-- When the export thread has ended, no flow is anywhere. -/
lemma Shut.ended (h : Shut c s) (hearly : c.Early) (hfin : s.exporter = .finished) :
    ∃ g a, Rep g a [] s ∧ s.naux = none ∧ g.live = [] ∧ g.gone = [] := by
  obtain ⟨⟨g, a, hrep, -, hnaux, hflags, hlive⟩, hdrained⟩ := h
  have hhand := hrep.owns.hand
  have hexpired := hrep.owns.expired
  have hflags' := hrep.owns.flags
  rw [hfin] at hhand
  rw [hdrained hfin, eq_comm, List.map_eq_nil_iff] at hexpired
  rw [hflags, eq_comm, List.map_eq_nil_iff] at hflags'
  refine ⟨g, a, hrep, hnaux, hlive hearly, ?_⟩
  rw [Layout.gone, List.map_eq_nil_iff.mp hhand, hexpired, hflags']
  rfl

lemma Clock.early_after (h : ∀ p ∈ ps, p.ts.toNat < 2 ^ 63) : (Clock.after ps).Early := by
  intro t ht
  rw [Clock.after_times] at ht
  obtain ⟨p, hp, rfl⟩ := List.mem_map.mp ht
  exact h p hp

/-- Every node and every session is in its pool, a session at hand apart. -/
structure Returned (s : State) : Prop where
  nodes : s.nodelPool.free.Perm (List.range maxPoolNode)
  sessions : (s.ipSessionPool.free ++ s.auxSession.toList).Perm (List.range maxPoolSession)
  freeNodes : s.nodelPool.freeCount = maxPoolNode
  usedSession : s.usedSession = s.auxSession.toList.length

/-- **Everything comes back.**  `used_session` is exact at every moment of every run; and when the export
thread has ended after the shutdown nothing is held any more, provided that `initData` was called once
at most and no timestamp reaches `2 ^ 63`. -/
theorem everything_returns {f : Phase} (h : Run ps s f) :
    s.usedSession + s.ipSessionPool.free.length = maxPoolSession
      ∧ (f = .closed → s.exporter = .finished → s.inits ≤ 1 → (∀ p ∈ ps, p.ts.toNat < 2 ^ 63) →
        Returned s) := by
  have htallied := h.tallied
  obtain ⟨⟨_, _, _, hrep₀⟩, -⟩ := h.sound
  rw [Tallied, hrep₀.owns.sessionPool.freeCount] at htallied
  refine ⟨htallied, ?_⟩
  rintro rfl hfin hinit hearly
  have hshut : Shut (Clock.after ps) s := h.inPhase
  obtain ⟨g, a, hrep, hnaux, hlive, hgone⟩ := hshut.ended (Clock.early_after hearly) hfin
  obtain ⟨hlostNodes, hlostSessions⟩ := hrep.lives.keeps hinit
  rw [Layout.gone, List.append_eq_nil_iff, List.append_eq_nil_iff] at hgone
  obtain ⟨⟨hhand, hexpired⟩, hflags⟩ := hgone
  have hnodes : s.nodelPool.free.Perm (List.range maxPoolNode) := by
    have hall := hrep.owns.nodes
    simpa only [Layout.nodes, hlive, hexpired, hflags, hfin, hnaux, hlostNodes, ExportPc.node,
      List.map_nil, Option.toList_none, List.append_nil] using hall
  have hsessions : (s.ipSessionPool.free ++ s.auxSession.toList).Perm (List.range maxPoolSession) := by
    have hall := hrep.owns.sessions
    simpa only [Layout.sessions, hlive, hexpired, hflags, hhand, hfin, hlostSessions,
      ExportPc.printedSession, List.map_nil, List.append_nil] using hall
  have hlength := hsessions.length_eq
  rw [List.length_append, List.length_range] at hlength
  refine ⟨hnodes, hsessions, ?_, by omega⟩
  rw [hrep.owns.nodePool.freeCount, hnodes.length_eq, List.length_range]

/-- Two flows, and the shutdown. -/
theorem everything_returns_two :
    let s := exportStep^[10]
      (capturaSenial.run (monitor [datagram 1 5 0, datagram 2 5 0, datagram 1 6 0])).1
    s.exported.length = 2 ∧ Returned s := by
  have hrun := (run_shutdown [datagram 1 5 0, datagram 2 5 0, datagram 1 6 0]).exports 10
  exact ⟨by decide +kernel, (everything_returns hrun).2 rfl (by decide +kernel) (by decide +kernel)
    (by decide +kernel)⟩

end End

end Flow
