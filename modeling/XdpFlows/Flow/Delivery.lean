import XdpFlows.Flow.Runs

/-!
# Every flow is exported once

After the shutdown nothing is added to the expired flows, so the final loop of `exportThread` takes a
flow out in every turn and ends (`Shut.drained`).  Then every session that was ever put into the table
has been expired once and exported once for each time it was put there, with the record of its
expiry, and all lists are empty (`flows_exported_once`).
-/

namespace Flow

open SessionWindow Sections

/-! ## The final loop ends -/

/-- The sections until the export thread looks at the expired flows again, or ends. -/
def ExportPc.weight : ExportPc → ℕ
  | .popped _ _ => 5
  | .printed _ _ _ => 4
  | .released _ _ => 3
  | .loop => 2
  | .draining => 1
  | .finished => 0

/-- An upper bound for the sections the export thread still runs once it was told to stop. -/
def State.toDrain (s : State) : ℕ :=
  5 * s.expiredFlowList.length + s.exporter.weight

lemma releaseNodel_expired (s : State) (n : NodeId) :
    (releaseNodel s n).expiredFlowList = s.expiredFlowList := by
  unfold releaseNodel
  split <;> rfl

lemma releaseIPSession_expired (s : State) (i : SessionId) :
    (releaseIPSession s i).expiredFlowList = s.expiredFlowList := by
  unfold releaseIPSession
  simp only
  split <;> rfl

/-- **Every section of the export thread brings it closer to its end.** -/
lemma Shut.exportStep_lt {c : Clock} {s : State} (h : Shut c s) (hrun : s.exporter ≠ .finished) :
    (exportStep s).toDrain < s.toDrain := by
  obtain ⟨⟨g, a, hrep, hclock, -⟩, -⟩ := h
  have hstop : s.stopEt = true := congrArg Clock.stop hclock
  cases hpc : s.exporter with
  | loop =>
      have hstep : exportStep s = { s with exporter := .draining } := by
        rw [exportStep, hpc]
        simp only [hstop, if_true]
      rw [hstep]
      simp only [State.toDrain, hpc, ExportPc.weight]
      omega
  | popped drain n =>
      obtain ⟨w, hw, hfst⟩ : ∃ w ∈ g.gone, w.1 = n := by
        have hmap := hrep.owns.hand
        rw [hpc] at hmap
        obtain ⟨w, hhand, hfst⟩ := List.map_eq_singleton_iff.mp hmap
        exact ⟨w, by simp [Layout.gone, hhand], hfst⟩
      have hat : s.sessionAt n = some w.2 := sessionAt_eq (hfst ▸ hrep.owns.left w hw)
      have hstep : (exportStep s).toDrain
          = 5 * s.expiredFlowList.length + (ExportPc.printed drain n w.2).weight := by
        rw [exportStep, hpc]
        simp only [hat]
        rfl
      rw [hstep]
      simp only [State.toDrain, hpc, ExportPc.weight]
      omega
  | printed drain n i =>
      have hstep : exportStep s = { releaseIPSession s i with exporter := .released drain n } := by
        rw [exportStep, hpc]
      rw [hstep]
      simp only [State.toDrain, releaseIPSession_expired, hpc, ExportPc.weight]
      omega
  | released drain n =>
      have hstep : (exportStep s).toDrain = 5 * (releaseNodel s n).expiredFlowList.length
          + (if drain then ExportPc.draining else .loop).weight := by
        rw [exportStep, hpc]
        rfl
      rw [hstep]
      simp only [State.toDrain, releaseNodel_expired, hpc]
      cases drain
      · simp only [ExportPc.weight, Bool.false_eq_true, if_false]
        omega
      · simp only [ExportPc.weight, if_true]
        omega
  | draining =>
      rw [exportStep, hpc]
      cases hexp : s.expiredFlowList with
      | nil =>
          simp only [popExpired_nil hexp, State.toDrain, hpc, ExportPc.weight, hexp]
          omega
      | cons n rest =>
          simp only [popExpired_cons hexp, State.toDrain, hpc, ExportPc.weight, hexp,
            List.length_cons]
          omega
  | finished => exact absurd hpc hrun

/-- The export thread ends. -/
lemma Shut.drained {c : Clock} {s : State} (h : Shut c s) :
    ∃ m, (exportStep^[m] s).exporter = .finished := by
  induction hn : s.toDrain using Nat.strong_induction_on generalizing s with
  | _ n ih =>
      by_cases hfin : s.exporter = .finished
      · exact ⟨0, hfin⟩
      · have hlt := h.exportStep_lt hfin
        rw [hn] at hlt
        obtain ⟨m, hm⟩ := ih _ hlt (stable_shut h rfl) rfl
        exact ⟨m + 1, hm⟩

/-! ## What is left in the end -/

/-- All flows are out, each exported once for every time it was inserted. -/
structure Delivered (s : State) : Prop where
  lives : ∀ i, Complete (s.life i)
  flowsTotal : s.flowsTotal = s.insertions
  flowTable : ∀ index, s.flowTable index = []
  activeFlowList : s.activeFlowList = []
  flagsExpiredFlowList : s.flagsExpiredFlowList = []
  expiredFlowList : s.expiredFlowList = []

/-- **Every flow is exported exactly once.**  After the shutdown the export thread ends, and when it has
ended all flows are delivered. -/
theorem flows_exported_once {ps : List Packet} {s : State} (h : Run ps s .closed)
    (hearly : ∀ p ∈ ps, p.ts.toNat < 2 ^ 63) (hinit : s.inits ≤ 1) :
    (∃ m, (exportStep^[m] s).exporter = .finished)
      ∧ (s.exporter = .finished → Delivered s) := by
  have hshut : Shut (Clock.after ps) s := h.inPhase
  refine ⟨hshut.drained, fun hfin => ?_⟩
  obtain ⟨⟨g, a, ⟨ho, hl, -⟩, -, -, hflags, hlive⟩, hdrained⟩ := hshut
  have hlive' : g.live = [] := by
    refine hlive fun t ht => ?_
    rw [Clock.after_times] at ht
    obtain ⟨p, hp, rfl⟩ := List.mem_map.mp ht
    exact hearly p hp
  have hgone : g.gone = [] := by
    have h1 := ho.hand
    have h2 := ho.expired
    have h3 := ho.flags
    rw [hfin] at h1
    rw [hdrained hfin, eq_comm, List.map_eq_nil_iff] at h2
    rw [hflags, eq_comm, List.map_eq_nil_iff] at h3
    rw [Layout.gone, List.map_eq_nil_iff.mp h1, h2, h3]
    rfl
  have hborn : g.born = [] := by
    have hperm := ho.bornPerm
    rw [hlive'] at hperm
    exact hperm.eq_nil
  refine ⟨fun i => ?_, ?_, fun index => ?_, ?_, hflags, hdrained hfin⟩
  · refine hl.rest i ?_ ?_ ?_
    · simp [hlive']
    · simp [hgone]
    · simp [(hl.keeps hinit).2]
  · have hcounted := hl.counted
    have htally := hl.tally hinit
    rw [hfin] at hcounted
    rw [hlive', hgone] at htally
    simp only [ExportPc.owed, List.length_nil, Nat.add_zero] at hcounted htally
    rw [hcounted, htally]
  · rw [ho.table, hborn]
    rfl
  · rw [ho.active, hlive']
    rfl

/-- Two packets of one flow and one of another, and the shutdown. -/
theorem flows_exported_once_two :
    let s := exportStep^[10]
      (capturaSenial.run (monitor [datagram 1 5 0, datagram 2 5 0, datagram 1 6 0])).1
    s.inits ≤ 1 ∧ s.exporter = .finished ∧ s.flowsTotal = 2 ∧ Delivered s := by
  have hrun := (run_shutdown [datagram 1 5 0, datagram 2 5 0, datagram 1 6 0]).exports 10
  have hinit : (exportStep^[10] (capturaSenial.run
      (monitor [datagram 1 5 0, datagram 2 5 0, datagram 1 6 0])).1).inits ≤ 1 := by
    decide +kernel
  have hfin : (exportStep^[10] (capturaSenial.run
      (monitor [datagram 1 5 0, datagram 2 5 0, datagram 1 6 0])).1).exporter = .finished := by
    decide +kernel
  exact ⟨hinit, hfin, by decide +kernel,
    (flows_exported_once hrun (by decide +kernel) hinit).2 hfin⟩

end Flow
