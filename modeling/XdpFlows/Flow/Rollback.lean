import XdpFlows.Flow.Runs

/-!
# A clock that steps back

`previous` is the second of the last tick, `previous2` the one before it; a packet of an earlier
second takes `previous` back to `previous2`.  At the start `previous2` is 0, and 0 is also what
`process_packet` takes for the first packet: if the clock steps back before it has ever stepped
forward, the next packet calls `initData` once more and all flows are forgotten.  `stepsForward` is
the condition on the packets under which this does not happen, and
`initialised_once_iff_stepsForward` says that it is the exact one.

A clock that steps back also turns the expiration test around: the difference of the times wraps, so
a session whose last packet is ahead of the clock counts as expired.  `nothing_early` says that this
is the only way in which a flow expires, or is superseded, too early.
-/

namespace Flow

open SessionWindow Sections

/-! ## The seconds -/

namespace Clock

variable {c : Clock} {p : Packet}

/-- The part of the clock that decides on `initData`. -/
def seconds (c : Clock) : UInt64 × UInt64 × ℕ :=
  (c.previous, c.previous2, c.inits)

lemma step_of_zero (h : c.previous = 0) : (c.step p).seconds = (p.sec, 0, c.inits + 1) := by
  unfold step stamp seconds
  generalize p.ts = t, p.sec = u
  simp [init, stay, h]

lemma step_of_lt (h : c.previous ≠ 0) (hlt : c.previous < p.sec) :
    (c.step p).seconds = (p.sec, c.previous, c.inits) := by
  unfold step stamp seconds
  revert hlt
  generalize p.ts = t, p.sec = u
  intro hlt
  simp [init, advance, h, hlt]

lemma step_of_eq (h : c.previous ≠ 0) (heq : c.previous = p.sec) :
    (c.step p).seconds = c.seconds := by
  unfold step stamp seconds
  revert heq
  generalize p.ts = t, p.sec = u
  rintro rfl
  simp [init, stay, h]

lemma step_of_gt (h : c.previous ≠ 0) (hgt : p.sec < c.previous) :
    (c.step p).seconds
      = (if c.previous2 < p.sec then c.previous2 else c.previous, c.previous2, c.inits) := by
  unfold step stamp seconds
  revert hgt
  generalize p.ts = t, p.sec = u
  intro hgt
  have hne : c.previous ≠ u := hgt.ne'
  have hnlt : ¬ c.previous < u := hgt.asymm
  simp only [init, stay, h, if_false, hne, hnlt]
  split_ifs <;> rfl

lemma seconds_eq {x y : UInt64} {n : ℕ} (h : c.seconds = (x, y, n)) :
    c.previous = x ∧ c.previous2 = y ∧ c.inits = n := by
  simpa only [seconds, Prod.mk.injEq] using h

/-- The number of calls of `initData` never goes down. -/
lemma inits_le_step (c : Clock) (p : Packet) : c.inits ≤ (c.step p).inits :=
  ((below_stamp c p).trans ((below_init _).trans (below_step c p))).inits

/-- Once both seconds are set they stay set, and `initData` is not called any more. -/
lemma step_settled (h : c.previous ≠ 0) (h2 : c.previous2 ≠ 0) (hp : p.sec ≠ 0) :
    (c.step p).previous ≠ 0 ∧ (c.step p).previous2 ≠ 0 ∧ (c.step p).inits = c.inits := by
  rcases lt_trichotomy c.previous p.sec with hlt | heq | hgt
  · obtain ⟨h1, h3, h4⟩ := seconds_eq (step_of_lt h hlt)
    exact ⟨h1 ▸ hp, h3 ▸ h, h4⟩
  · obtain ⟨h1, h3, h4⟩ := seconds_eq (step_of_eq h heq)
    exact ⟨h1 ▸ h, h3 ▸ h2, h4⟩
  · obtain ⟨h1, h3, h4⟩ := seconds_eq (step_of_gt h hgt)
    refine ⟨?_, h3 ▸ h2, h4⟩
    rw [h1]
    split_ifs
    · exact h2
    · exact h

end Clock

/-! ## Stepping forward first -/

/-- The first packet that falls into another second than the first one falls into a later one. -/
def stepsForward : List Packet → Bool
  | [] => true
  | p :: ps =>
      match ps.find? fun q => q.sec ≠ p.sec with
      | none => true
      | some q => p.sec < q.sec

/-- Where the clock stands after the packets `p :: ps`. -/
def Stand (p : Packet) (ps : List Packet) (c : Clock) : Prop :=
  match ps.find? fun q => q.sec ≠ p.sec with
  | none => c.previous = p.sec ∧ c.previous2 = 0 ∧ c.inits = 1
  | some q =>
      if p.sec < q.sec then c.previous ≠ 0 ∧ c.previous2 ≠ 0 ∧ c.inits = 1
      else (c.previous = 0 ∧ c.inits = 1) ∨ 2 ≤ c.inits

/-- **Every packet takes the clock from one stand to the next.** -/
lemma Stand.step {p q : Packet} {ps : List Packet} {c : Clock} (h : Stand p ps c)
    (hp : p.sec ≠ 0) (hq : q.sec ≠ 0) : Stand p (ps ++ [q]) (c.step q) := by
  unfold Stand at h ⊢
  rw [List.find?_append]
  cases hfind : ps.find? fun x => x.sec ≠ p.sec with
  | none =>
      rw [hfind] at h
      obtain ⟨h1, h2, h3⟩ := h
      have hprev : c.previous ≠ 0 := h1 ▸ hp
      rcases lt_trichotomy p.sec q.sec with hlt | heq | hgt
      · obtain ⟨e1, e2, e3⟩ := Clock.seconds_eq (Clock.step_of_lt hprev (h1.trans_lt hlt))
        have hone : [q].find? (fun x => x.sec ≠ p.sec) = some q := by simp [hlt.ne']
        simp only [Option.none_or, hone, hlt, if_true, e1, e2, e3, h1, h3]
        exact ⟨hq, hp, trivial⟩
      · obtain ⟨e1, e2, e3⟩ := Clock.seconds_eq (Clock.step_of_eq hprev (h1.trans heq))
        have hone : [q].find? (fun x => x.sec ≠ p.sec) = none := by simp [heq]
        simp only [Option.none_or, hone, e1, e2, e3, h1, h2, h3, and_self]
      · -- the clock steps back to `previous2`, which is still 0
        obtain ⟨e1, -, e3⟩ := Clock.seconds_eq (Clock.step_of_gt hprev (hgt.trans_eq h1.symm))
        have hone : [q].find? (fun x => x.sec ≠ p.sec) = some q := by simp [hgt.ne]
        have hpos : c.previous2 < q.sec := by
          rw [h2]
          exact UInt64.pos_iff_ne_zero.mpr hq
        rw [if_pos hpos] at e1
        simp only [Option.none_or, hone, hgt.asymm, if_false, e1, e3, h2, h3, and_self, true_or]
  | some r =>
      rw [hfind] at h
      simp only [Option.some_or] at h ⊢
      split_ifs at h ⊢ with hlt
      · obtain ⟨h1, h2, h3⟩ := h
        obtain ⟨e1, e2, e3⟩ := Clock.step_settled h1 h2 hq
        exact ⟨e1, e2, e3.trans h3⟩
      · refine Or.inr ?_
        rcases h with ⟨h1, h3⟩ | h3
        · obtain ⟨-, -, e3⟩ := Clock.seconds_eq (Clock.step_of_zero (p := q) h1)
          omega
        · exact h3.trans (Clock.inits_le_step c q)

lemma stand_after (p : Packet) (ps : List Packet) (hsec : ∀ q ∈ p :: ps, q.sec ≠ 0) :
    Stand p ps (Clock.after (p :: ps)) := by
  induction ps using List.reverseRecOn with
  | nil =>
      have hafter : Clock.after [p] = (Clock.after []).step p := Clock.after_concat [] p
      obtain ⟨h1, h2, h3⟩ :=
        Clock.seconds_eq (Clock.step_of_zero (c := Clock.after []) (p := p) rfl)
      rw [hafter]
      simp only [Stand, List.find?_nil]
      exact ⟨h1, h2, h3⟩
  | append_singleton ps q ih =>
      rw [← List.cons_append, Clock.after_concat]
      refine (ih fun x hx => hsec x ?_).step (hsec p (List.mem_cons_self ..)) (hsec q (by simp))
      rw [← List.cons_append]
      exact List.mem_append_left _ hx

/-- The stand of the clock decides. -/
lemma Stand.iff {p : Packet} {ps : List Packet} {c : Clock} (h : Stand p ps c) (hp : p.sec ≠ 0) :
    (c.inits ≤ 1 ∧ c.previous ≠ 0) ↔ stepsForward (p :: ps) = true := by
  unfold Stand at h
  unfold stepsForward
  cases hfind : ps.find? fun x => x.sec ≠ p.sec with
  | none =>
      simp only [hfind] at h ⊢
      obtain ⟨h1, -, h3⟩ := h
      simp only [h1, h3, Nat.le_refl, ne_eq, hp, not_false_eq_true, and_self]
  | some r =>
      simp only [hfind] at h ⊢
      split_ifs at h with hlt
      · obtain ⟨h1, -, h3⟩ := h
        simp only [h1, h3, hlt, Nat.le_refl, ne_eq, not_false_eq_true, and_self, decide_true]
      · simp only [hlt, decide_false, Bool.false_eq_true, iff_false, not_and]
        intro hle
        rcases h with ⟨h1, -⟩ | h3
        · exact not_not.mpr h1
        · omega

/-- `initData` has been called at most once, and between two packets `previous` is not 0 again. -/
def InitialisedOnce (ps : List Packet) : Prop :=
  ∀ s f, Run ps s f → s.inits ≤ 1 ∧ (f = .idle → ps ≠ [] → s.previous ≠ 0)

lemma sec_ne_zero {p : Packet} (h : 1 ≤ p.sec) : p.sec ≠ 0 := by
  intro h0
  rw [h0] at h
  exact absurd h (by decide)

/-- Forward steps keep the clock set and `initData` from being called again. -/
lemma Clock.after_of_stepsForward {ps : List Packet} (hsec : ∀ p ∈ ps, 1 ≤ p.sec)
    (h : stepsForward ps = true) :
    (after ps).inits ≤ 1 ∧ (ps ≠ [] → (after ps).previous ≠ 0) := by
  cases ps with
  | nil => exact ⟨Nat.zero_le 1, fun hne => absurd rfl hne⟩
  | cons p ps =>
      have hnz : ∀ q ∈ p :: ps, q.sec ≠ 0 := fun q hq => sec_ne_zero (hsec q hq)
      obtain ⟨hinits, hprev⟩ :=
        ((stand_after p ps hnz).iff (hnz p (List.mem_cons_self ..))).mpr h
      exact ⟨hinits, fun _ => hprev⟩

lemma Run.inits_le_one {ps : List Packet} {s : State} {f : Phase} (h : Run ps s f)
    (hsec : ∀ p ∈ ps, 1 ≤ p.sec) (hforward : stepsForward ps = true) : s.inits ≤ 1 := by
  obtain ⟨-, hbelow⟩ := h.sound
  exact hbelow.inits.trans (Clock.after_of_stepsForward hsec hforward).1

lemma Run.idle_clock {ps : List Packet} {s : State} (h : Run ps s .idle) :
    s.clock = Clock.after ps := by
  obtain ⟨-, -, -, hclock, -⟩ := h.inPhase
  exact hclock

/-- **The flow state is initialised once exactly if the clock steps forward first.** -/
theorem initialised_once_iff_stepsForward {ps : List Packet} (hsec : ∀ p ∈ ps, 1 ≤ p.sec) :
    InitialisedOnce ps ↔ stepsForward ps = true := by
  refine ⟨fun h => ?_, fun hforward s f h => ⟨h.inits_le_one hsec hforward, fun hf hne => ?_⟩⟩
  · cases ps with
    | nil => rfl
    | cons p ps =>
        have hnz : ∀ q ∈ p :: ps, q.sec ≠ 0 := fun q hq => sec_ne_zero (hsec q hq)
        have hrun := run_monitor (p :: ps)
        obtain ⟨hinits, hprev⟩ := h _ _ hrun
        rw [← (stand_after p ps hnz).iff (hnz p (List.mem_cons_self ..)), ← hrun.idle_clock]
        exact ⟨hinits, hprev rfl (List.cons_ne_nil _ _)⟩
  · subst hf
    have hprev := (Clock.after_of_stepsForward hsec hforward).2 hne
    rw [← h.idle_clock] at hprev
    exact hprev

/-- A clock that steps back by two seconds after it has stepped forward. -/
theorem initialised_once_iff_stepsForward_back :
    InitialisedOnce [datagram 1 5 0, datagram 1 6 0, datagram 1 4 0] :=
  (initialised_once_iff_stepsForward (by decide +kernel)).mpr (by decide +kernel)

/-- The flow of the first two packets is forgotten with the third. -/
theorem rollback_calls_initData_again :
    let ps := [datagram 1 5 0, datagram 1 3 0, datagram 1 4 0]
    (∀ p ∈ ps, 1 ≤ p.sec) ∧ Run ps (monitor ps) .idle ∧ (monitor ps).inits = 2
      ∧ ¬ InitialisedOnce ps := by
  have hinits : (monitor [datagram 1 5 0, datagram 1 3 0, datagram 1 4 0]).inits = 2 := by
    decide +kernel
  refine ⟨by decide +kernel, run_monitor _, hinits, fun h => ?_⟩
  have hle := (h _ _ (run_monitor _)).1
  rw [hinits] at hle
  exact absurd hle (by decide)

lemma Packet.sec_mono {p q : Packet} (h : p.ts ≤ q.ts) : p.sec ≤ q.sec := by
  rw [UInt64.le_iff_toNat_le] at h ⊢
  rw [Packet.sec, Packet.sec, UInt64.toNat_div, UInt64.toNat_div]
  exact Nat.div_le_div_right h

/-- With a clock that does not step back, `initData` is called once. -/
lemma stepsForward_of_sorted {ps : List Packet}
    (h : (ps.map Packet.ts).Pairwise (· ≤ ·)) : stepsForward ps = true := by
  cases ps with
  | nil => rfl
  | cons p ps =>
      cases hfind : ps.find? fun q => q.sec ≠ p.sec with
      | none => simp only [stepsForward, hfind]
      | some q =>
          have hne : q.sec ≠ p.sec := by simpa using List.find?_some hfind
          have hle : p.ts ≤ q.ts := by
            rw [List.map_cons, List.pairwise_cons] at h
            exact h.1 _ (List.mem_map_of_mem (List.mem_of_find?_eq_some hfind))
          simp only [stepsForward, hfind]
          exact decide_eq_true (lt_of_le_of_ne (Packet.sec_mono hle) hne.symm)

/-! ## Nothing happens early -/

/-- No flow was expired, and none superseded by another one of its key, unless its last packet was
longer ago than the timeout. -/
structure OnTime (s : State) : Prop where
  expired : ∀ i r now, Event.expired i r now ∈ s.trace →
    r.last.toNat + expirationFlowTime.toNat < now.toNat
  opened : ∀ i now others, Event.opened i now others ∈ s.trace →
    ∀ last ∈ others, last.toNat + expirationFlowTime.toNat < now.toNat

lemma mem_notes {s : State} {e : Event} {n : Note UInt64} (h : e ∈ s.trace)
    (hn : e.note? = some n) : n ∈ s.notes :=
  List.mem_filterMap.mpr ⟨e, h, hn⟩

/-- **Nothing happens early** in a run in which the clock was never behind a session whose age was
tested. -/
theorem nothing_early {ps : List Packet} {s : State} {f : Phase} (h : Run ps s f)
    (hforward : ∀ last now, Event.tested last now ∈ s.trace → last ≤ now) : OnTime s := by
  obtain ⟨⟨g, a, pend, -, -, hs⟩, -⟩ := h.sound
  have hnotes : Rules.Forward a := by
    intro last now hmem
    rw [hs.notes] at hmem
    obtain ⟨e, he, hnote⟩ := List.mem_filterMap.mp hmem
    cases e with
    | tested l n =>
        obtain ⟨rfl, rfl⟩ := Note.tested.inj (Option.some.inj hnote)
        exact hforward _ _ he
    | _ => simp [Event.note?] at hnote
  obtain ⟨hleft, hopened, -⟩ := hs.reach.noneEarly rules_waits hnotes
  rw [hs.notes] at hleft hopened
  refine ⟨fun i r now hmem => ?_, fun i now others hmem last hlast => ?_⟩
  · obtain ⟨hle, hstale⟩ := hleft _ _ (mem_notes hmem rfl)
    exact (stale_iff hle).mp hstale
  · obtain ⟨hle, hstale⟩ := hopened _ _ (mem_notes hmem rfl) last hlast
    exact (stale_iff hle).mp hstale

/-- Two packets of one flow in order, and one 91 seconds later. -/
theorem nothing_early_in_order :
    OnTime (monitor [datagram 1 5 0, datagram 1 6 0, datagram 1 97 1]) := by
  refine nothing_early (run_monitor _) fun last now hmem => ?_
  have hnotes : (monitor [datagram 1 5 0, datagram 1 6 0, datagram 1 97 1]).notes
      = [.opened 5000000 [], .tested 5000000 6000000, .tested 5000000 6000000,
        .tested 6000000 97000001, .left 6000000 97000001, .opened 97000001 []] := by
    decide +kernel
  have hnote := mem_notes hmem rfl
  rw [hnotes] at hnote
  simp only [List.mem_cons, reduceCtorEq, Note.tested.injEq, List.not_mem_nil, or_false,
    false_or] at hnote
  rcases hnote with ⟨rfl, rfl⟩ | ⟨rfl, rfl⟩ | ⟨rfl, rfl⟩ <;> decide

/-- The second packet of a flow is stamped 0.3 seconds before the first one. -/
theorem rollback_opens_early :
    let ps := [datagram 1 10 500000, datagram 1 10 200000]
    (∀ p ∈ ps, p.ts.toNat < 2 ^ 63) ∧ Run ps (monitor ps) .idle ∧ ¬ OnTime (monitor ps) := by
  have hnotes : (monitor [datagram 1 10 500000, datagram 1 10 200000]).notes
      = [.opened 10500000 [], .tested 10500000 10200000, .opened 10200000 [10500000]] := by
    decide +kernel
  refine ⟨by decide +kernel, run_monitor _, fun h => ?_⟩
  have hmem : Note.opened 10200000 [10500000]
      ∈ (monitor [datagram 1 10 500000, datagram 1 10 200000]).notes := by
    rw [hnotes]
    simp
  obtain ⟨e, he, hnote⟩ := List.mem_filterMap.mp hmem
  cases e with
  | opened i now others =>
      obtain ⟨rfl, rfl⟩ := Note.opened.inj (Option.some.inj hnote)
      have hlate := h.opened _ _ _ he 10500000 (List.mem_singleton.mpr rfl)
      exact absurd hlate (by decide)
  | _ => simp [Event.note?] at hnote

end Flow
