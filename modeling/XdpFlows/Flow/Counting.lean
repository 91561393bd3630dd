import XdpFlows.Flow.Aggregation
import XdpFlows.Flow.History
import XdpFlows.Flow.Intake

/-!
# Packets of known flows

What happens to a packet whose flow is in the table and has not expired.  With a session at hand it is
counted in its flow, whatever the export thread does meanwhile (`Run.counts`): the lookup finds that
flow and no other, because at most one flow of a key has not expired.  Without a session at hand the
packet is dropped before anybody looks for its flow.

* `counted_iff_at_hand`: the exact condition.
* `counts_exact_iff_short`: how long the number of packets of a flow is exact.
-/

namespace Flow

open SessionWindow Sections

variable {ps : List Packet} {s s' t : State} {p : Packet} {i : SessionId}

/-! ## Before the parser -/

/-- What `process_packet` leaves alone until it comes to the parser. -/
structure Unparsed (s s' : State) : Prop where
  pool : s'.ipSessionPool = s.ipSessionPool
  aux : s'.auxSession = s.auxSession ∨ (s'.auxSession = none ∧ s.inits < s'.inits)
  inits : s.inits ≤ s'.inits
  reached : s'.reached = s.reached

namespace Unparsed

lemma refl (s : State) : Unparsed s s :=
  ⟨rfl, Or.inl rfl, le_refl _, rfl⟩

lemma trans {u : State} (h : Unparsed s t) (h' : Unparsed t u) : Unparsed s u := by
  refine ⟨h'.pool.trans h.pool, ?_, h.inits.trans h'.inits, h'.reached.trans h.reached⟩
  rcases h'.aux with haux | ⟨haux, hlt⟩
  · rcases h.aux with haux' | ⟨haux', hlt⟩
    · exact Or.inl (haux.trans haux')
    · exact Or.inr ⟨haux.trans haux', hlt.trans_le h'.inits⟩
  · exact Or.inr ⟨haux, h.inits.trans_lt hlt⟩

/-- Some events were logged, but no packet reached `insertFlow`. -/
lemma of_logged (hpool : s'.ipSessionPool = s.ipSessionPool)
    (haux : s'.auxSession = s.auxSession) {l : List Event} (htrace : s'.trace = s.trace ++ l)
    (hl : l.filterMap Event.reached? = []) : Unparsed s s' := by
  refine ⟨hpool, Or.inl haux, ?_, ?_⟩
  · rw [State.inits, State.inits, htrace, List.countP_append]
    exact Nat.le_add_right ..
  · rw [State.reached, State.reached, htrace, List.filterMap_append, hl, List.append_nil]

lemma of_silent (hpool : s'.ipSessionPool = s.ipSessionPool)
    (haux : s'.auxSession = s.auxSession) (htrace : s'.trace = s.trace) : Unparsed s s' :=
  of_logged hpool haux (htrace.trans (List.append_nil _).symm) rfl

/-- The session at hand is the same, unless `initData` was called. -/
lemma sessionAtHand_iff (h : Unparsed s s') (hinits : s'.inits = s.inits) :
    SessionAtHand s' ↔ SessionAtHand s := by
  have haux : s'.auxSession = s.auxSession := by
    refine h.aux.resolve_right fun hlt => ?_
    rw [hinits] at hlt
    exact absurd hlt.2 (lt_irrefl _)
  rw [SessionAtHand, SessionAtHand, haux, h.pool]

end Unparsed

lemma unlinkSession_kept (s : State) (n b : NodeId) (i : SessionId) :
    (unlinkSession s n b i).ipSessionPool = s.ipSessionPool
      ∧ (unlinkSession s n b i).auxSession = s.auxSession
      ∧ (unlinkSession s n b i).trace = s.trace := by
  simp only [unlinkSession, releaseNodel]
  split
  · exact ⟨rfl, rfl, rfl⟩
  · exact ⟨rfl, rfl, rfl⟩

lemma cleanupStep_unparsed (n : NodeId) (s : State) : Unparsed s (cleanupStep n s).1 := by
  have hcrash : Unparsed s s.crash := .of_silent rfl rfl rfl
  unfold cleanupStep
  split
  · rename_i b _
    split
    · exact hcrash
    · rename_i i _
      simp only
      split_ifs
      · obtain ⟨hpool, haux, htrace⟩ := unlinkSession_kept
          (s.log (.tested (s.ips i).lastpacketTimestamp s.lastPacketTimestamp)) n b i
        exact .of_logged hpool haux
          ((congrArg (· ++ [Event.expired i _ _]) htrace).trans (List.append_assoc ..)) rfl
      · exact .of_logged rfl rfl rfl rfl
  · exact hcrash

lemma flagsStep_unparsed (n : NodeId) (s : State) : Unparsed s (flagsStep n s).1 := by
  have hcrash : Unparsed s s.crash := .of_silent rfl rfl rfl
  unfold flagsStep
  split
  · rename_i b _
    split
    · exact hcrash
    · rename_i i _
      obtain ⟨hpool, haux, htrace⟩ := unlinkSession_kept s n b i
      exact .of_silent hpool haux htrace
  · exact hcrash

lemma cleanupLoop_unparsed (fuel : ℕ) (n : Option NodeId) :
    (cleanupLoop fuel n).Each Unparsed := by
  induction fuel generalizing n with
  | zero =>
      cases n with
      | none => trivial
      | some n => exact .act fun _ => .of_silent rfl rfl rfl
  | succ fuel ih =>
      cases n with
      | none => trivial
      | some n => exact .bind (.atomic (cleanupStep_unparsed n)) ih

lemma flagsLoop_unparsed (fuel : ℕ) (n : Option NodeId) : (flagsLoop fuel n).Each Unparsed := by
  induction fuel generalizing n with
  | zero =>
      cases n with
      | none => trivial
      | some n => exact .act fun _ => .of_silent rfl rfl rfl
  | succ fuel ih =>
      cases n with
      | none => trivial
      | some n => exact .bind (.atomic (flagsStep_unparsed n)) ih

lemma cleanupFlows_unparsed : cleanupFlows.Each Unparsed := by
  refine .bind (.atomic fun s => .refl s) fun x => ?_
  refine .bind (cleanupLoop_unparsed _ _) fun _ => ?_
  refine .bind (flagsLoop_unparsed _ _) fun _ => ?_
  exact .act fun _ => .of_silent rfl rfl rfl

lemma stamped_unparsed (t u : UInt64) (p : Packet) (s : State) :
    Unparsed s ({ s with lastPacketTimestamp := t, current := u }.log (.received p)) :=
  .of_logged rfl rfl rfl rfl

lemma stampClock_unparsed (p : Packet) (s : State) : Unparsed s (stampClock p s) :=
  stamped_unparsed p.ts p.sec p s

lemma firstPacket_unparsed (s : State) : Unparsed s (firstPacket s).1 := by
  unfold firstPacket
  simp only
  split_ifs
  · have hinits : (initData s).inits = s.inits + 1 := inits_log _ _
    refine ⟨rfl, Or.inr ⟨rfl, by omega⟩, by omega, ?_⟩
    exact (reached_log _ _).trans (List.append_nil _)
  · exact .refl s

lemma countSeconds_unparsed (s : State) : Unparsed s (countSeconds s) := by
  unfold countSeconds
  simp only
  split_ifs
  · exact .of_logged rfl rfl rfl rfl
  · exact .of_silent rfl rfl rfl

lemma sameSecond_unparsed (s : State) : Unparsed s (sameSecond s) := by
  unfold sameSecond
  split_ifs
  · exact .of_silent rfl rfl rfl
  · exact .of_silent rfl rfl rfl
  · exact .refl s

/-- **Nothing is parsed before the parser.** -/
lemma keepTime_unparsed (p : Packet) : (keepTime p).Each Unparsed := by
  refine .bind (.act (stampClock_unparsed p)) fun _ => ?_
  refine .bind (.atomic firstPacket_unparsed) fun second => ?_
  split_ifs
  · refine .bind (.act countSeconds_unparsed) fun _ => ?_
    exact .bind cleanupFlows_unparsed fun _ => .act fun _ => .of_silent rfl rfl rfl
  · exact .act sameSecond_unparsed

/-! ## The flow of a packet -/

section Found

variable {g : Layout} {a : Flows Packet UInt64} {pend : List Packet}

/-- The session of the abstract store. -/
lemma Rep.session (h : Rep g a pend s) (hi : s.InTable i) :
    ∃ S ∈ a.live, s.record i = recordOf S := by
  obtain ⟨e, he, rfl⟩ := h.owns.inTable_iff.mp hi
  have hmem : s.record e.sess ∈ a.live.map recordOf := by
    rw [← h.shows.live]
    exact List.mem_map_of_mem he
  obtain ⟨S, hS, heq⟩ := List.mem_map.mp hmem
  exact ⟨S, hS, heq.symm⟩

/-- With a clock that does not step back no flow is ahead of it. -/
lemma Rep.past (h : Rep g a pend s) (hsteady : s.times.Pairwise (· ≤ ·)) (hi : s.InTable i) :
    (s.record i).last ≤ s.lastPacketTimestamp ∧ s.lastPacketTimestamp ∈ s.times := by
  obtain ⟨S, hS, hrecord⟩ := h.session hi
  have hchain : S ∈ a.chain := List.mem_append_right _ (List.mem_reverse.mpr hS)
  have horder := h.shows.reach.inOrder (by rw [Rules.Steady, h.shows.times]; exact hsteady)
  refine ⟨?_, ?_⟩
  · rw [hrecord, ← h.shows.now]
    exact horder.past S hchain
  · rw [← h.shows.now, ← h.shows.times]
    refine horder.started.resolve_right fun hnil => ?_
    rw [hnil] at hchain
    exact absurd hchain List.not_mem_nil

lemma Rep.apart (h : Rep g a pend s) (hsteady : s.times.Pairwise (· ≤ ·)) :
    a.live.Pairwise fun S T => rules.key S.first = rules.key T.first → Stale (rules.last T) a.now :=
  h.shows.reach.apart rules_waits (by rw [Rules.Steady, h.shows.times]; exact hsteady)

/-- The flow that has not expired is the one the lookup finds. -/
lemma Rep.found (h : Rep g a pend s) (hsteady : s.times.Pairwise (· ≤ ·)) (hi : s.InTable i)
    (hkey : s.key i = p.key) (hfresh : ¬ Stale (s.record i).last s.lastPacketTimestamp) :
    ¬ Unfound p a := by
  obtain ⟨S, hS, hrecord⟩ := h.session hi
  have hfresh' : ¬ Stale (rules.last S) a.now := by
    rw [h.shows.now]
    rw [hrecord] at hfresh
    exact hfresh
  obtain ⟨A, B, hlive⟩ := List.append_of_mem hS
  have hapart := h.apart hsteady
  rw [hlive] at hapart
  have hkS : rules.key S.first = rules.key p := (key_of_record hrecord).symm.trans hkey
  intro hunfound
  refine hfresh' (hunfound S ?_).1
  refine List.find?_eq_some_iff_append.mpr ⟨by simpa using hkS, A, B, hlive, fun T hT => ?_⟩
  simp only [Bool.not_eq_true', decide_eq_false_iff_not]
  intro hkT
  exact hfresh' ((List.pairwise_append.mp hapart).2.2 T hT S (List.mem_cons_self ..)
    (hkT.trans hkS.symm))

/-- Of two flows of a key one has expired. -/
lemma Rep.eq_of_fresh (h : Rep g a pend s) (hsteady : s.times.Pairwise (· ≤ ·)) {j : SessionId}
    (hi : s.InTable i) (hj : s.InTable j) (hkey : s.key i = s.key j)
    (hfi : ¬ Stale (s.record i).last s.lastPacketTimestamp)
    (hfj : ¬ Stale (s.record j).last s.lastPacketTimestamp) : i = j := by
  let R : Entry → Entry → Prop := fun e e' => s.key e.sess = s.key e'.sess →
    Stale (s.record e.sess).last s.lastPacketTimestamp
      ∨ Stale (s.record e'.sess).last s.lastPacketTimestamp
  have hsymm : Std.Symm R := ⟨fun x y hxy hk => (hxy hk.symm).symm⟩
  have hpair : g.live.Pairwise R := by
    have hrecords : (a.live.map recordOf).Pairwise fun r r' => r.flow.key = r'.flow.key →
        Stale r.last s.lastPacketTimestamp ∨ Stale r'.last s.lastPacketTimestamp := by
      rw [List.pairwise_map, ← h.shows.now]
      exact (h.apart hsteady).imp fun hST hkey => Or.inr (hST hkey)
    rw [← h.shows.live, List.pairwise_map] at hrecords
    exact hrecords
  obtain ⟨e, he, rfl⟩ := h.owns.inTable_iff.mp hi
  obtain ⟨e', he', rfl⟩ := h.owns.inTable_iff.mp hj
  by_contra hne
  have hor := hpair.forall he he' (fun heq => hne (congrArg Entry.sess heq)) hkey
  exact hor.elim hfi hfj

end Found

/-! ## With a session at hand -/

/-- Session `i` is in the table with the record `r` of the packets `l`, and `initData` has been called as
often as the clock `b` says. -/
structure Kept (b : Clock) (i : SessionId) (r : FlowRecord) (l : List Packet) (s : State) : Prop where
  inTable : s.InTable i
  record : s.record i = r
  joined : joined i s.trace = l
  inits : s.inits = b.inits

section Kept

variable {b : Clock} {r : FlowRecord} {l : List Packet} {now : UInt64}
  (hsteady : b.times.Pairwise (· ≤ ·)) (hmax : ∀ t ∈ b.times, t ≤ now)
  (hrecent : now.toNat ≤ r.last.toNat + expirationFlowTime.toNat)

include hsteady hmax hrecent

/-- On the way to a time at which the flow has not expired it has not expired either. -/
lemma Kept.fresh (h : Kept b i r l s) (hs : Sound b s) :
    ¬ Stale (s.record i).last s.lastPacketTimestamp := by
  obtain ⟨⟨g, a, pend, hrep⟩, hbelow⟩ := hs
  obtain ⟨hpast, hmem⟩ := hrep.past (hsteady.sublist hbelow.times.sublist) h.inTable
  have hle := hmax _ (hbelow.times.subset hmem)
  rw [stale_iff hpast, h.record]
  rw [UInt64.le_iff_toNat_le] at hle
  omega

/-- A step that puts no packet anywhere leaves the flow as it is. -/
lemma Kept.still (h : Kept b i r l s) (hs : Sound b s) (hs' : Sound b s') (hstill : Still s s') :
    Kept b i r l s' := by
  obtain ⟨m, htrace, hm⟩ := hstill.trace
  have hge : s.inits ≤ s'.inits := by
    rw [State.inits, State.inits, htrace, List.countP_append]
    exact Nat.le_add_right ..
  have hinits : s'.inits = b.inits := le_antisymm hs'.2.inits (h.inits.ge.trans hge)
  have htable : s'.InTable i := by
    rcases hstill.stays i h.inTable with ht | hstale | hlt
    · exact ht
    · exact absurd hstale (h.fresh hsteady hmax hrecent hs)
    · rw [hinits, h.inits] at hlt
      exact absurd hlt (lt_irrefl _)
  refine ⟨htable, (hstill.record i (.inl h.inTable) (.inl htable)).trans h.record, ?_, hinits⟩
  rw [htrace, joined_aside i s.trace fun e he => (hm e he).1, h.joined]

/-- The export thread leaves the flow as it is. -/
lemma Kept.export (h : Kept b i r l s) (hs : Sound b s) (hs' : Sound b s') (hstep : ExportStep s s') :
    Kept b i r l s' := by
  obtain ⟨g, a, pend, hrep⟩ := hs.1
  refine h.still hsteady hmax hrecent hs hs' ?_
  rw [hstep]
  exact hrep.owns.exportStep_still

lemma stable_kept {P : State → Prop} (hst : Stable ExportStep P) (hP : ∀ s, P s → Sound b s) :
    Stable ExportStep fun s => P s ∧ Kept b i r l s := by
  rintro s s' ⟨hp, hkept⟩ hstep
  have hp' := hst hp hstep
  exact ⟨hp', hkept.export hsteady hmax hrecent (hP s hp) (hP s' hp') hstep⟩

/-- **Up to the parser**, the flow and the session at hand are kept. -/
lemma guarantees_keepTime_kept {c : Clock} (hb : (c.step p).Below b) (h : Idle c s)
    (hkept : Kept b i r l s) :
    Guarantees ExportStep (Sound b) (fun s s' => Still s s' ∧ Unparsed s s')
      (fun _ t => Opened c p t ∧ Kept b i r l t ∧ (SessionAtHand s → SessionAtHand t)) (keepTime p)
      s := by
  refine ((guarantees_keepTime hb h).each (keepTime_unparsed p)).keeps ?_ ?_ ⟨hkept, id⟩
  · rintro t t' ht ht' ⟨hkept, hhand⟩ ⟨hstill, hunparsed⟩
    have hkept' := hkept.still hsteady hmax hrecent ht ht' hstill
    refine ⟨hkept', fun hs => ?_⟩
    rw [hunparsed.sessionAtHand_iff (hkept'.inits.trans hkept.inits.symm)]
    exact hhand hs
  · rintro t t' ht ht' ⟨hkept, hhand⟩ hstep
    exact ⟨hkept.export hsteady hmax hrecent ht ht' hstep, fun hs => stable_atHand (hhand hs) hstep⟩

end Kept

/-- The flow with one packet more. -/
lemma Kept.grow {b : Clock} {r : FlowRecord} {l : List Packet} (h : Kept b i r l s)
    (hmerges : Merges p i s s') (hinits : s'.inits = b.inits) :
    Kept b i (r.grow p) (l ++ [p]) s' := by
  refine ⟨(hmerges.table i).mpr h.inTable, by rw [hmerges.record, h.record], ?_, hinits⟩
  rw [hmerges.trace, joined_merged, if_pos rfl, h.joined]
  exact congrArg (fun q : Option Packet => l ++ q.toList) hmerges.handles.reached

lemma insertFlowLookup_aux (i : SessionId) (s : State) :
    (insertFlowLookup i s).1.auxSession = s.auxSession := by
  simp only [insertFlowLookup, updateFlowTable]
  repeat' split
  all_goals rfl

lemma Idle.sound {b : Clock} (h : Idle b s) : Sound b s := by
  obtain ⟨g, a, hrep, hclock, -⟩ := h
  exact ⟨⟨g, a, [], hrep⟩, hclock ▸ .refl _⟩

lemma Idle.acquire_at_hand {b : Clock} (h : Idle b s) (hinits : 1 ≤ b.inits)
    (hhand : SessionAtHand s) :
    ∃ x, (acquireSession s).2 = some x ∧ Fetched b x (acquireSession s).1 := by
  refine (h.acquire hinits).2.resolve_left fun hnone => ?_
  obtain ⟨g, a, hrep, -⟩ := h
  rcases hrep.owns.acquireSession_cases with ⟨hnot, -⟩ | ⟨x, pool, -, -, -, heq⟩ | ⟨x, -, heq⟩
  · exact hnot hhand
  · rw [heq] at hnone
    exact absurd hnone.1 (by simp)
  · rw [heq] at hnone
    exact absurd hnone.1 (by simp)

lemma Fetched.parse_accepted {b : Clock} {x : SessionId} (h : Fetched b x s) (hinits : 1 ≤ b.inits)
    (hacc : (Flow.parse p .zero).verdict = .accepted) :
    (parseInto p x s).2 = true ∧ Called b p x (parseInto p x s).1 := by
  obtain ⟨hret, -, hcalled⟩ := (h.parse hinits p).2.resolve_left fun hfalse => by
    obtain ⟨g, a, -, -, -, -, -, hzero⟩ := h
    obtain ⟨u, hu, -⟩ := parseInto_accepted (s := s) (i := x) (p := p) (by rw [hzero, hacc])
    rw [hu] at hfalse
    exact absurd hfalse.1 (by simp)
  exact ⟨hret, hcalled⟩

section Counts

variable {b : Clock} {r : FlowRecord} {l : List Packet} (hsteady : b.times.Pairwise (· ≤ ·))
  (hnow : b.times.getLast? = some b.now) (hts : p.ts = b.now)
  (hrecent : p.ts.toNat ≤ r.last.toNat + expirationFlowTime.toNat)
  (hacc : (parse p .zero).verdict = .accepted) (hkey : r.flow.key = p.key)

include hsteady hnow hts in
lemma le_of_steady : ∀ t ∈ b.times, t ≤ p.ts := by
  obtain ⟨ts, htimes⟩ := List.getLast?_eq_some_iff.mp hnow
  intro t ht
  rw [htimes] at ht hsteady
  rw [List.mem_append, List.mem_singleton] at ht
  rcases ht with ht | rfl
  · exact hts ▸ (List.pairwise_append.mp hsteady).2.2 t ht _ (List.mem_singleton.mpr rfl)
  · exact hts.ge

include hsteady hnow hts hrecent hacc hkey

/-- **The lookup finds the flow** and counts the packet. -/
lemma Called.lookup_counts {x : SessionId} (h : Called b p x s) (hkept : Kept b i r l s) :
    (insertFlowLookup x s).2 = .done ∧ Idle b (insertFlowLookup x s).1
      ∧ Kept b i (r.grow p) (l ++ [p]) (insertFlowLookup x s).1 := by
  have hmax := le_of_steady hsteady hnow hts
  have hsound : Sound b s := At.sound (.refl b) s h
  have hfresh := hkept.fresh hsteady hmax hrecent hsound
  rcases h.lookup hacc hts hnow with ⟨-, hstill, hmissed⟩ | ⟨hret, ⟨j, hmerges⟩, hidle⟩
  · -- the flow would have been found
    have hsound' : Sound b (insertFlowLookup x s).1 := At.sound (.refl b) _ hmissed
    have hkept' := hkept.still hsteady hmax hrecent hsound hsound' hstill
    have hkey' : (insertFlowLookup x s).1.key i = p.key := by
      rw [← hkey, ← hkept'.record]
      rfl
    obtain ⟨g, a, hrep, hclock, -, hunfound⟩ := hmissed
    have htimes : (insertFlowLookup x s).1.times = b.times := congrArg Clock.times hclock
    exact absurd hunfound (hrep.found (htimes ▸ hsteady) hkept'.inTable hkey'
      (hkept'.fresh hsteady hmax hrecent hsound'))
  · obtain ⟨g, a, hrep, hclock, -⟩ := h
    have htimes : s.times = b.times := congrArg Clock.times hclock
    have hnow' : s.lastPacketTimestamp = p.ts := (congrArg Clock.now hclock).trans hts.symm
    have hkey' : s.key i = p.key := by
      rw [← hkey, ← hkept.record]
      rfl
    obtain rfl : i = j := hrep.eq_of_fresh (htimes ▸ hsteady) hkept.inTable hmerges.inTable
      (hkey'.trans hmerges.key.symm) hfresh (hnow' ▸ hmerges.fresh)
    refine ⟨hret, hidle, hkept.grow hmerges ?_⟩
    obtain ⟨g', a', -, hclock', -⟩ := hidle
    exact congrArg Clock.inits hclock'

/-- **From the parser on** the packet is counted in its flow. -/
lemma safe_parseFrame_counts (hcap : 14 ≤ p.caplen) (hinits : 1 ≤ b.inits) (h : Idle b s)
    (hkept : Kept b i r l s) (hhand : SessionAtHand s) :
    Safe ExportStep (Sound b)
      (fun _ s => Idle b s ∧ Kept b i (r.grow p) (l ++ [p]) s ∧ SessionAtHand s) (parseFrame p) s := by
  have hmax := le_of_steady hsteady hnow hts
  have hidleS : ∀ s, Idle b s ∧ SessionAtHand s → Sound b s := fun s hs => hs.1.sound
  have hidleE : Stable ExportStep fun s => Idle b s ∧ SessionAtHand s := fun s s' hs hstep =>
    ⟨stable_idle hs.1 hstep, stable_atHand hs.2 hstep⟩
  have hfetchedS : ∀ x s, Fetched b x s → Sound b s := fun x => At.sound (.refl b)
  have hcalledS : ∀ x s, Called b p x s → Sound b s := fun x => At.sound (.refl b)
  rw [parseFrame, if_pos hcap]
  refine Safe.atomic_bind (stable_kept hsteady hmax hrecent hidleE hidleS)
    (fun s hs => hidleS s hs.1) ?_ ⟨⟨h, hhand⟩, hkept⟩
  rintro s ⟨hidle, hkept⟩
  obtain ⟨x, hret, hfetched⟩ := hidle.1.acquire_at_hand hinits hidle.2
  have hkept := hkept.still hsteady hmax hrecent (hidleS s hidle) (hfetchedS x _ hfetched)
    (hidle.1.acquire hinits).1
  rw [hret]
  refine Safe.atomic_bind (stable_kept hsteady hmax hrecent stable_fetched (hfetchedS x))
    (fun s hs => hfetchedS x s hs.1) ?_ ⟨hfetched, hkept⟩
  rintro s ⟨hfetched, hkept⟩
  obtain ⟨hret, hcalled⟩ := hfetched.parse_accepted hinits hacc
  have hkept := hkept.still hsteady hmax hrecent (hfetchedS x s hfetched) (hcalledS x _ hcalled)
    (hfetched.parse hinits p).1
  rw [hret]
  refine Safe.atomic_bind (stable_kept hsteady hmax hrecent stable_called (hcalledS x))
    (fun s hs => hcalledS x s hs.1) ?_ ⟨hcalled, hkept⟩
  rintro s ⟨hcalled, hkept⟩
  obtain ⟨hret, hidle, hgrown⟩ :=
    hcalled.lookup_counts hsteady hnow hts hrecent hacc hkey hkept
  have hhand : SessionAtHand (insertFlowLookup x s).1 := by
    obtain ⟨-, -, -, -, -, -, haux, -⟩ := hcalled
    exact Or.inl (by rw [insertFlowLookup_aux, haux]; simp)
  rw [hret]
  exact Safe.ret (stable_kept hsteady hmax (Nat.le_add_right ..) hidleE hidleS)
    (fun s hs => hidleS s hs.1) (fun s hs => ⟨hs.1.1, hs.2, hs.1.2⟩) ⟨⟨hidle, hhand⟩, hgrown⟩

end Counts

/-! ## The exact condition -/

/-- `process_packet` has counted the packet in session `i`: one packet and `len` bytes more, and the time
of the last packet is that of this one. -/
def CountedIn (i : SessionId) (p : Packet) (s s' : State) : Prop :=
  s'.InTable i ∧ s'.record i = (s.record i).grow p

section Condition

variable (h : Run ps s .idle) (hsorted : ((ps ++ [p]).map Packet.ts).Pairwise (· ≤ ·))
  (hi : s.InTable i)
  (hrecent : p.ts.toNat ≤ (s.record i).last.toNat + expirationFlowTime.toNat)

include hsorted in
lemma steady_step : ((Clock.after ps).step p).times.Pairwise (· ≤ ·) := by
  rw [← Clock.after_concat, Clock.after_times]
  exact hsorted

/-- With `previous` set `initData` is not called. -/
lemma Clock.step_inits_of_ne {c : Clock} (hprev : c.previous ≠ 0) (p : Packet) :
    (c.step p).inits = c.inits := by
  rw [step_inits, init, if_neg (fun h0 => hprev ((c.stamp_previous p).symm.trans h0)), stamp_inits]

include h hi in
lemma Run.kept (hprev : s.previous ≠ 0) :
    Kept ((Clock.after ps).step p) i (s.record i) (joined i s.trace) s := by
  have hclock := h.idle_clock
  refine ⟨hi, rfl, rfl, ?_⟩
  rw [Clock.step_inits_of_ne (by rw [← hclock]; exact hprev), ← hclock]
  rfl

include h hsorted hi hrecent

/-- **With a session at hand the packet is counted**, whatever the export thread does meanwhile. -/
lemma Run.counts (hcap : 14 ≤ p.caplen) (hacc : (parse p .zero).verdict = .accepted)
    (hkey : s.key i = p.key) (hprev : s.previous ≠ 0) (hhand : SessionAtHand s)
    (hend : Ends ExportStep (processPacket p) s () s') :
    CountedIn i p s s' ∧ joined i s'.trace = joined i s.trace ++ [p] ∧ SessionAtHand s' := by
  have hidle : Idle (Clock.after ps) s := h.inPhase
  have hsteady := steady_step hsorted
  have hnow := (Clock.after ps).step_last p
  have hts := ((Clock.after ps).step_now p).symm
  have hinits : 1 ≤ ((Clock.after ps).step p).inits := by
    rw [Clock.step_inits]
    exact hidle.started p
  have hsafe : Safe ExportStep (Sound ((Clock.after ps).step p)) (fun _ t =>
      Idle ((Clock.after ps).step p) t ∧ Kept ((Clock.after ps).step p) i ((s.record i).grow p)
        (joined i s.trace ++ [p]) t ∧ SessionAtHand t) (processPacket p) s := by
    rw [processPacket_eq]
    refine Safe.bind (guarantees_keepTime_kept hsteady (le_of_steady hsteady hnow hts) hrecent
      (.refl _) hidle (h.kept hi hprev)).safe fun _ t ht => ?_
    exact safe_parseFrame_counts hsteady hnow hts hrecent hacc hkey hcap hinits ht.1.1.idle ht.2.1
      (ht.2.2 hhand)
  obtain ⟨-, hkept, hhand'⟩ := hsafe.ends hend
  exact ⟨⟨hkept.inTable, hkept.record⟩, hkept.joined, hhand'⟩

/-- **Without a session at hand the packet is dropped**, if the export thread gives none back. -/
lemma Run.drops (hcap : 14 ≤ p.caplen) (hprev : s.previous ≠ 0) (hhand : ¬ SessionAtHand s) :
    ((processPacket p).run s).1.record i = s.record i := by
  have hidle : Idle (Clock.after ps) s := h.inPhase
  have hsteady := steady_step hsorted
  have hnow := (Clock.after ps).step_last p
  have hts := ((Clock.after ps).step_now p).symm
  have hrest := (guarantees_keepTime_kept hsteady (le_of_steady hsteady hnow hts) hrecent (.refl _)
    hidle (h.kept hi hprev)).safe.run
  have hunparsed := (keepTime_unparsed p).run .refl (fun _ _ _ => Unparsed.trans) s
  obtain ⟨t, ht⟩ : ∃ t, ((keepTime p).run s).1 = t := ⟨_, rfl⟩
  rw [ht] at hrest hunparsed
  obtain ⟨hopened, hkept, -⟩ := hrest
  have hhand' : ¬ SessionAtHand t := by
    rw [hunparsed.sessionAtHand_iff (hkept.inits.trans (h.kept hi hprev).inits.symm)]
    exact hhand
  obtain ⟨g, a, hrep, -⟩ := hopened.1
  obtain ⟨u, hacq, hrecord⟩ : ∃ u, acquireSession t = (u, none) ∧ u.record i = t.record i := by
    rcases hrep.owns.acquireSession_cases with ⟨-, heq⟩ | ⟨x, pool, -, hfree, hok, -⟩ | ⟨x, haux, -⟩
    · exact ⟨_, heq, rfl⟩
    · refine absurd (Or.inr ?_) hhand'
      have hpos := List.length_pos_iff.mpr hok.nonempty
      rw [hfree, List.length_cons]
      omega
    · exact absurd (Or.inl (by simp [haux])) hhand'
  have hrun : ((processPacket p).run s).1 = u := by
    rw [processPacket_eq, Prog.run_bind, ht, parseFrame, if_pos hcap, parsePacket_none hacq]
  rw [hrun, hrecord, hkept.record]

end Condition

/-- A session the packet is parsed into is not one of the table. -/
lemma Owns.acquireSession_ne {g : Layout} (h : Owns g s) (hi : s.InTable i) (ht : Unparsed s t)
    {x : SessionId} {u : State} (hacq : acquireSession t = (u, some x)) {g' : Layout}
    (h' : Owns g' t) : i ≠ x := by
  rintro rfl
  obtain ⟨e, he, rfl⟩ := h.inTable_iff.mp hi
  have hone := h.session_count e.sess
  have hpos := count_map_pos (f := Entry.sess) he
  rcases h'.acquireSession_cases with ⟨-, heq⟩ | ⟨y, pool, -, hfree, -, heq⟩ | ⟨y, haux, heq⟩
  · rw [heq] at hacq
    exact absurd (congrArg Prod.snd hacq) (by simp)
  · rw [heq] at hacq
    obtain rfl : y = e.sess := Option.some.inj (congrArg Prod.snd hacq)
    rw [ht.pool] at hfree
    rw [hfree, List.count_cons_self] at hone
    omega
  · rw [heq] at hacq
    obtain rfl : y = e.sess := Option.some.inj (congrArg Prod.snd hacq)
    have haux' : s.auxSession = some e.sess := by
      rcases ht.aux with hsame | ⟨hnone, -⟩
      · exact hsame.symm.trans haux
      · exact absurd (hnone.symm.trans haux) (by simp)
    rw [haux', Option.toList_some, List.count_singleton_self] at hone
    omega

/-- `parsePacket` alone, with a session at hand. -/
lemma parsePacket_some {x : SessionId} (hacq : acquireSession s = (t, some x)) :
    (parsePacket p).run s = (parseWith p x).run t := by
  rw [parsePacket, Prog.run_bind]
  simp only [Prog.atomic, Prog.run, hacq]
  rfl

/-- **Where `previous` is 0 the flow is forgotten**, and its session does not come back. -/
lemma Run.forgets (h : Run ps s .idle) (hi : s.InTable i) (hprev : s.previous = 0)
    (hcap : 14 ≤ p.caplen) : ¬ ((processPacket p).run s).1.InTable i := by
  have hidle : Idle (Clock.after ps) s := h.inPhase
  have hprev' : (Clock.after ps).previous = 0 := by
    rw [← h.idle_clock]
    exact hprev
  have hinits : 1 ≤ ((Clock.after ps).step p).inits := by
    rw [Clock.step_inits]
    exact hidle.started p
  have hopened := (guarantees_keepTime (p := p) (.refl _) hidle).safe.run
  have hunparsed := (keepTime_unparsed p).run .refl (fun _ _ _ => Unparsed.trans) s
  obtain ⟨t, ht⟩ : ∃ t, ((keepTime p).run s).1 = t := ⟨_, rfl⟩
  rw [ht] at hopened hunparsed
  have hidle' := hopened.1.idle
  obtain ⟨g', a', hrep', -, -, -, hempty⟩ := hopened.1
  have htable : ¬ t.InTable i := by
    intro hin
    obtain ⟨S, hS, -⟩ := hrep'.session hin
    exact hempty S hS hprev'
  obtain ⟨hstill, hacquire⟩ := hidle'.acquire hinits
  rw [processPacket_eq, Prog.run_bind, ht, parseFrame, if_pos hcap]
  obtain ⟨⟨u, x⟩, hacq⟩ : ∃ y, acquireSession t = y := ⟨_, rfl⟩
  rw [hacq] at hstill hacquire
  have htable' : ¬ u.InTable i := fun hin => htable (hstill.table i hin)
  cases x with
  | none =>
      rw [parsePacket_none hacq]
      exact htable'
  | some x =>
      obtain ⟨g, a, hrep, -⟩ := hidle
      have hne : i ≠ x := hrep.owns.acquireSession_ne hi hunparsed hacq hrep'.owns
      obtain ⟨y, hy, hfetched⟩ := hacquire.resolve_left fun hnone => absurd hnone.1 (by simp)
      obtain rfl : x = y := Option.some.inj hy
      rw [parsePacket_some hacq]
      have hkeeps := (guarantees_parseWith (.refl _) ((Clock.after ps).step_now p).symm
        ((Clock.after ps).step_last p) hinits hfetched).keeps (I := fun s => ¬ s.InTable i) ?_ ?_ htable'
      · exact hkeeps.safe.run.2
      · intro s s' _ _ hs heffect hin
        cases heffect with
        | still hstill => exact hs (hstill.table i hin)
        | merge hmerges => exact hs ((hmerges.table i).mp hin)
        | start hopens => exact ((hopens.table i).mp hin).elim hne hs
      · intro s s' hs _ htab hstep hin
        obtain ⟨g, a, pend, hrep⟩ := hs.1
        rw [hstep] at hin
        exact htab (hrep.owns.exportStep_still.table i hin)

lemma FlowRecord.grow_ne (r : FlowRecord) (p : Packet) : r.grow p ≠ r := by
  intro heq
  have hnpack : r.flow.npack + 1 = r.flow.npack := congrArg (fun r : FlowRecord => r.flow.npack) heq
  simp at hnpack

/-- **Traffic of known flows is counted exactly if a session is at hand**, and `previous` is set. -/
theorem counted_iff_at_hand (h : Run ps s .idle)
    (hsorted : ((ps ++ [p]).map Packet.ts).Pairwise (· ≤ ·)) (hcap : 14 ≤ p.caplen)
    (hacc : (parse p .zero).verdict = .accepted) (hi : s.InTable i) (hkey : s.key i = p.key)
    (hrecent : p.ts.toNat ≤ (s.record i).last.toNat + expirationFlowTime.toNat) :
    (∀ s', Ends ExportStep (processPacket p) s () s' → CountedIn i p s s')
      ↔ s.previous ≠ 0 ∧ SessionAtHand s := by
  constructor
  · intro hall
    obtain ⟨hin, hrecord⟩ := hall _ (Ends.run ExportStep (processPacket p) s)
    have hprev : s.previous ≠ 0 := fun h0 => h.forgets hi h0 hcap hin
    refine ⟨hprev, ?_⟩
    by_contra hhand
    rw [h.drops hsorted hi hrecent hcap hprev hhand] at hrecord
    exact FlowRecord.grow_ne _ p hrecord.symm
  · rintro ⟨hprev, hhand⟩ s' hend
    exact (h.counts hsorted hi hrecent hcap hacc hkey hprev hhand hend).1

/-- The second packet of a flow. -/
theorem counted_iff_at_hand_second :
    (monitor [datagram 1 5 0]).InTable 2499 ∧ ∀ s',
      Ends ExportStep (processPacket (datagram 1 6 0)) (monitor [datagram 1 5 0]) () s' →
        CountedIn 2499 (datagram 1 6 0) (monitor [datagram 1 5 0]) s' := by
  have htable : (monitor [datagram 1 5 0]).InTable 2499 :=
    State.inTable_of_mem (show 18 < maxFlowTableSize by decide)
      (show 4999 ∈ _ by decide +kernel) (by decide +kernel)
  refine ⟨htable, (counted_iff_at_hand (run_monitor _) (by decide +kernel) (by decide)
    (by decide +kernel) htable (by decide +kernel) (by decide +kernel)).mpr ⟨by decide +kernel, ?_⟩⟩
  exact Or.inr (by decide +kernel)

/-- Once a packet came, `previous` is set, with a clock that does not step back. -/
lemma Run.previous_ne_zero (h : Run ps s .idle) (hsec : ∀ q ∈ ps, 1 ≤ q.sec)
    (hsorted : (ps.map Packet.ts).Pairwise (· ≤ ·)) (hne : ps ≠ []) : s.previous ≠ 0 := by
  have hset := (Clock.after_of_stepsForward hsec (stepsForward_of_sorted hsorted)).2 hne
  rw [← h.idle_clock] at hset
  exact hset

/-! ## A full pool -/

/-- Alone and with a session at hand, `process_packet` hands an accepted packet to `insertFlow`. -/
lemma Run.reaches (h : Run ps s .idle) (hcap : 14 ≤ p.caplen)
    (hacc : (parse p .zero).verdict = .accepted) (hhand : SessionAtHand ((keepTime p).run s).1) :
    ((processPacket p).run s).1.reached = s.reached ++ [p] := by
  have hunparsed := (keepTime_unparsed p).run .refl (fun _ _ _ => Unparsed.trans) s
  have hrun := h.packet p
  rw [processPacket_eq] at hrun ⊢
  have hpartway := hrun.partway
  rw [Prog.run_bind, parseFrame, if_pos hcap]
  obtain ⟨i, t, hacq, hzero, hreached⟩ := hpartway.acquire hhand
  obtain ⟨u, hparse, -, hreached'⟩ := parseInto_accepted (s := t) (i := i) (p := p) (by rw [hzero, hacc])
  rw [parsePacket_accepted hacq hparse, insertFlow_reached, hreached', hreached, hunparsed.reached]

/-- Packets of different flows at one moment: every one has a flow of its own in the table, and that many
sessions are missing in the pool. -/
lemma Rep.one_each {g : Layout} {a : Flows Packet UInt64} (h : Rep g a [] s) (hinits : s.inits ≤ 1)
    {now : UInt64} (htimes : ∀ t ∈ s.times, t = now) (hts : ∀ q ∈ s.reached, q.ts = now)
    (hkeys : (s.reached.map Packet.key).Nodup) :
    s.ipSessionPool.free.length + s.auxSession.toList.length + s.reached.length = maxPoolSession
      ∧ ∀ q ∈ s.reached, ∃ i, s.InTable i ∧ s.record i = recordOf (.start q) := by
  obtain ⟨hintact, -, -⟩ := h.shows.intact hinits
  have hreached : s.reached = a.arrivals := h.shows.arrivals.trans (List.append_nil _)
  rw [hreached] at hts hkeys ⊢
  have hsteady : Rules.Steady a := by
    rw [Rules.Steady, h.shows.times]
    exact List.pairwise_of_forall_mem_list fun t ht u hu => by rw [htimes t ht, htimes u hu]
  have hgone := (h.shows.reach.segments decides_near rules_waits hsteady hintact).gone
  obtain ⟨hsingle, hall, hlength⟩ :=
    h.shows.reach.singletons decides_near rules_waits hsteady hintact hkeys
  have hout : a.out = [] := by
    refine List.eq_nil_iff_forall_not_mem.mpr fun S hS => ?_
    have hchain : S ∈ a.chain := List.mem_append_left _ hS
    have hlast : rules.last S = now := by
      rw [(hsingle S hchain).1]
      exact hts _ (hsingle S hchain).2
    have hnow : a.now = now := by
      refine htimes _ ?_
      rw [← h.shows.times]
      exact (h.shows.reach.inOrder hsteady).started.resolve_right (List.ne_nil_of_mem hchain)
    have hstale := hgone S hS
    rw [hlast, hnow] at hstale
    exact absurd ((stale_iff (le_refl now)).mp hstale) (Nat.not_lt.mpr (Nat.le_add_right ..))
  obtain ⟨hexported, hgone⟩ : s.exported = [] ∧ g.gone = [] := by
    have hnone := h.shows.out
    rw [hout] at hnone
    simpa using hnone
  refine ⟨?_, fun q hq => ?_⟩
  · have hprinted : s.exporter.printedSession = [] := by
      have howed := h.lives.counted
      cases hpc : s.exporter with
      | printed drain n i => simp [hpc, hexported, ExportPc.owed] at howed
      | _ => rfl
    have hlive : g.live.length = a.arrivals.length := by
      have hrecords := congrArg List.length h.shows.live
      simpa [← hlength, Flows.chain, hout] using hrecords
    have hlen := h.owns.session_length
    simp only [Layout.gone, List.append_eq_nil_iff] at hgone
    rw [(h.lives.keeps hinits).2, hgone.1.1, hgone.1.2, hgone.2, hprinted, hlive] at hlen
    simpa using hlen
  · have hrecord : recordOf (.start q) ∈ g.live.map fun e => s.record e.sess := by
      rw [h.shows.live]
      refine List.mem_map_of_mem ?_
      simpa [Flows.chain, hout] using hall q hq
    obtain ⟨e, he, heq⟩ := List.mem_map.mp hrecord
    exact ⟨e.sess, h.owns.inTable_iff.mpr ⟨e, he, rfl⟩, heq⟩

/-- A UDP datagram. -/
def probeFrame (port : UInt16) : EthFrame where
  destinationMac := fun _ => 0
  sourceMac := fun _ => 0
  tags := []
  ip := ⟨0, 28, 0, 0, 64, 0, 0x0A000001, 0x0A000002, []⟩
  transport := .udp port 53 8 0

/-- It as a packet of second 5. -/
def probe (port : UInt16) : Packet where
  bytes := ByteReader.ofList (probeFrame port).encode 0
  tvSec := 5
  tvUsec := 0
  caplen := 42
  len := 42

/-- Datagrams from `n` ports. -/
def flood (n : ℕ) : List Packet :=
  (List.range n).map fun k => probe (UInt16.ofNat k)

section Flood

lemma probe_parse (port : UInt16) : (parse (probe port) .zero).verdict = .accepted
    ∧ (probe port).flow = (probeFrame port).flow 42 := by
  have hformed : (probeFrame port).WellFormed := by
    constructor <;> simp [probeFrame, Ipv4Header.hLen, Transport.Fits]
  have hparse := parse_encode (p := probe port) hformed (ByteReader.holds_ofList _ _) (le_of_eq rfl)
  exact ⟨congrArg Parsed.verdict hparse, congrArg Parsed.flow hparse⟩

lemma probe_ts (port : UInt16) : (probe port).ts = 5000000 := by
  show (5 : UInt64) * 1000000 + 0 = 5000000
  decide

lemma flood_succ (n : ℕ) : flood (n + 1) = flood n ++ [probe (UInt16.ofNat n)] := by
  rw [flood, List.range_succ, List.map_append]
  rfl

lemma flood_ts {n : ℕ} : ∀ q ∈ flood n, q.ts = 5000000 := by
  intro q hq
  obtain ⟨k, -, rfl⟩ := List.mem_map.mp hq
  exact probe_ts _

lemma flood_keys {n : ℕ} (hn : n ≤ 65536) : ((flood n).map Packet.key).Nodup := by
  rw [flood, List.map_map]
  refine List.Nodup.map_on (fun x hx y hy heq => ?_) List.nodup_range
  have hport : UInt16.ofNat x = UInt16.ofNat y := by
    have hkey := congrArg Key.sourcePort heq
    simp only [Function.comp_apply, Packet.key, (probe_parse _).2] at hkey
    exact hkey
  have hnat := congrArg UInt16.toNat hport
  rw [List.mem_range] at hx hy
  simp only [UInt16.toNat_ofNat', Nat.reducePow] at hnat
  omega

lemma flood_sorted (n : ℕ) : ((flood n).map Packet.ts).Pairwise (· ≤ ·) := by
  refine List.pairwise_map.mpr (List.pairwise_of_forall_mem_list fun q hq r hr => ?_)
  rw [flood_ts q hq, flood_ts r hr]

lemma flood_sec {n : ℕ} : ∀ q ∈ flood n, 1 ≤ q.sec := by
  intro q hq
  obtain ⟨k, -, rfl⟩ := List.mem_map.mp hq
  rw [Packet.sec, probe_ts]
  decide

lemma flood_one_each {n m : ℕ} (hn : n ≤ 65536) (h : Idle (Clock.after (flood m)) s)
    (hreached : s.reached = flood n) :
    (SessionAtHand s ↔ n < 2499)
      ∧ ∀ q ∈ flood n, ∃ i, s.InTable i ∧ s.record i = recordOf (.start q) := by
  obtain ⟨g, a, hrep, hclock, -⟩ := h
  have hinits : s.inits ≤ 1 := by
    have heq : s.inits = (Clock.after (flood m)).inits := congrArg Clock.inits hclock
    rw [heq]
    exact (Clock.after_of_stepsForward flood_sec (stepsForward_of_sorted (flood_sorted m))).1
  have htimes : ∀ t ∈ s.times, t = 5000000 := by
    have heq : s.times = (flood m).map Packet.ts :=
      (congrArg Clock.times hclock).trans (Clock.after_times _)
    rw [heq, List.forall_mem_map]
    exact flood_ts
  obtain ⟨hcount, hall⟩ := hrep.one_each hinits htimes (hreached ▸ flood_ts)
    (hreached ▸ flood_keys hn)
  rw [hreached] at hcount hall
  refine ⟨?_, hall⟩
  have hlen : (flood n).length = n := by simp [flood]
  have hpos := List.length_pos_iff.mpr hrep.owns.sessionPool.nonempty
  have hmax : maxPoolSession = 2500 := rfl
  rw [hlen, hmax] at hcount
  cases haux : s.auxSession with
  | none =>
      simp only [haux, Option.toList_none, List.length_nil] at hcount
      simp only [SessionAtHand, haux, ne_eq, not_true_eq_false, false_or]
      omega
  | some x =>
      simp only [haux, Option.toList_some, List.length_singleton] at hcount
      simp only [SessionAtHand, haux, ne_eq, reduceCtorEq, not_false_eq_true, true_or, true_iff]
      omega

lemma flood_reached {n : ℕ} (hn : n ≤ 2499) : (monitor (flood n)).reached = flood n := by
  induction n with
  | zero => rfl
  | succ n ih =>
      have hrun := run_monitor (flood n)
      have hidle : Idle (Clock.after (flood n)) (monitor (flood n)) := hrun.inPhase
      have hopened := (guarantees_keepTime (p := probe (.ofNat n)) (.refl _) hidle).safe.run.1.idle
      have hunparsed := (keepTime_unparsed (probe (.ofNat n))).run .refl (fun _ _ _ => Unparsed.trans)
        (monitor (flood n))
      rw [← Clock.after_concat, ← flood_succ] at hopened
      have hhand := (flood_one_each (by omega) hopened (hunparsed.reached.trans (ih (by omega)))).1
      have hreaches := hrun.reaches (p := probe (.ofNat n)) (show (14 : UInt32) ≤ 42 by decide)
        (probe_parse _).1 (hhand.mpr (by omega))
      rw [ih (by omega)] at hreaches
      rw [flood_succ, monitor, List.foldl_append]
      exact hreaches

/-- **A packet of a flow in the table is dropped**: 2499 flows began in this second, the pool has one
session left, which it does not give away, and the first flow gets a second packet. -/
theorem full_pool_drops_known_flow :
    Run (flood 2499) (monitor (flood 2499)) .idle
      ∧ ((flood 2499 ++ [probe 0]).map Packet.ts).Pairwise (· ≤ ·)
      ∧ 14 ≤ (probe 0).caplen ∧ (parse (probe 0) .zero).verdict = .accepted
      ∧ ∃ i, (monitor (flood 2499)).InTable i ∧ (monitor (flood 2499)).key i = (probe 0).key
        ∧ (probe 0).ts.toNat ≤ ((monitor (flood 2499)).record i).last.toNat + expirationFlowTime.toNat
        ∧ ∃ s', Ends ExportStep (processPacket (probe 0)) (monitor (flood 2499)) () s'
          ∧ ¬ CountedIn i (probe 0) (monitor (flood 2499)) s' := by
  obtain ⟨n, hn⟩ : ∃ n, n = 2499 := ⟨_, rfl⟩
  rw [← hn]
  have hrun := run_monitor (flood n)
  have hreached := flood_reached hn.le
  generalize monitor (flood n) = s at hrun hreached ⊢
  obtain ⟨hhand, hall⟩ := flood_one_each (by omega) hrun.inPhase hreached
  have hfirst : probe 0 ∈ flood n := List.mem_map.mpr ⟨0, List.mem_range.mpr (by omega), rfl⟩
  have hcap : 14 ≤ (probe 0).caplen := show (14 : UInt32) ≤ 42 by decide
  have hacc := (probe_parse 0).1
  have hts := probe_ts 0
  generalize probe 0 = q at hfirst hcap hacc hts ⊢
  have hsorted : ((flood n ++ [q]).map Packet.ts).Pairwise (· ≤ ·) := by
    rw [List.map_append, List.pairwise_append]
    refine ⟨flood_sorted n, List.pairwise_singleton _ _, fun t ht u hu => ?_⟩
    obtain ⟨r, hr, rfl⟩ := List.mem_map.mp ht
    rw [List.map_singleton, List.mem_singleton] at hu
    rw [hu, hts, flood_ts r hr]
  obtain ⟨i, hi, hrecord⟩ := hall q hfirst
  have hkey : s.key i = q.key := key_of_record hrecord
  have hrecent : q.ts.toNat ≤ (s.record i).last.toNat + expirationFlowTime.toNat := by
    rw [hrecord]
    exact Nat.le_add_right ..
  have hprev := hrun.previous_ne_zero flood_sec (flood_sorted n) (List.ne_nil_of_mem hfirst)
  refine ⟨hrun, hsorted, hcap, hacc, i, hi, hkey, hrecent, _, Ends.run ExportStep _ s, ?_⟩
  rintro ⟨-, hgrown⟩
  rw [hrun.drops hsorted hi hrecent hcap hprev (fun h => absurd (hhand.mp h) (by omega))] at hgrown
  exact FlowRecord.grow_ne _ q hgrown.symm

end Flood

/-! ## Very long flows -/

/-- The packet counter of a record is the number of packets put into session `i`. -/
def CountsAll (trace : List Event) (i : SessionId) (r : FlowRecord) : Prop :=
  r.flow.npack.toNat = (joined i trace).length

lemma Told.countsAll_iff {T : UInt64 → Prop} {trace : List Event} {r : FlowRecord}
    (h : Told T trace i r) : CountsAll trace i r ↔ (joined i trace).length < 2 ^ 32 := by
  obtain ⟨S, hjoined, rfl, -⟩ := h
  rw [CountsAll, hjoined]
  show (UInt32.ofNat S.packets.length).toNat = _ ↔ _
  rw [UInt32.toNat_ofNat']
  omega

/-- **Packet counts are exact up to 2^32 - 1 packets**, and only so far: in memory and in the records that
were exported. -/
theorem counts_exact_iff_short {f : Phase} (h : Run ps s f) :
    (∀ i, s.InTable i ∨ s.Leaving i →
        (CountsAll s.trace i (s.record i) ↔ (joined i s.trace).length < 2 ^ 32))
      ∧ ∀ l i r m, s.trace = l ++ .exported i r :: m →
        (CountsAll l i r ↔ (joined i l).length < 2 ^ 32) := by
  have hrecounts := h.recounts (T := fun _ => True) fun _ _ => trivial
  exact ⟨fun i hi => (hrecounts.held i hi).countsAll_iff,
    fun l i r m heq => (hrecounts.exported l i r m heq).countsAll_iff⟩

/-- Two packets of a flow. -/
theorem counts_exact_iff_short_two :
    (monitor [datagram 1 5 0, datagram 1 6 0]).InTable 2499
      ∧ CountsAll (monitor [datagram 1 5 0, datagram 1 6 0]).trace 2499
        ((monitor [datagram 1 5 0, datagram 1 6 0]).record 2499) := by
  have htable : (monitor [datagram 1 5 0, datagram 1 6 0]).InTable 2499 :=
    State.inTable_of_mem (show 18 < maxFlowTableSize by decide)
      (show 4999 ∈ _ by decide +kernel) (by decide +kernel)
  exact ⟨htable, ((counts_exact_iff_short (run_monitor _)).1 2499 (.inl htable)).mpr (by decide +kernel)⟩

section Forever

lemma replicate_sorted (n : ℕ) (p : Packet) :
    ((List.replicate n p).map Packet.ts).Pairwise (· ≤ ·) := by
  rw [List.map_replicate, List.pairwise_replicate]
  exact Or.inr (le_refl _)

/-- One packet again and again is always counted in the same session. -/
lemma replicate_counts (n : ℕ) :
    let s := monitor (List.replicate (n + 1) (datagram 1 5 0))
    s.InTable 2499 ∧ (joined 2499 s.trace).length = n + 1 ∧ s.key 2499 = (datagram 1 5 0).key
      ∧ (s.record 2499).last = (datagram 1 5 0).ts ∧ SessionAtHand s := by
  induction n with
  | zero =>
      have htable : (monitor [datagram 1 5 0]).InTable 2499 :=
        State.inTable_of_mem (show 18 < maxFlowTableSize by decide)
          (show 4999 ∈ _ by decide +kernel) (by decide +kernel)
      exact ⟨htable, by decide +kernel, by decide +kernel, by decide +kernel, Or.inr (by decide +kernel)⟩
  | succ n ih =>
      have hrun := run_monitor (List.replicate (n + 1) (datagram 1 5 0))
      have hmonitor : monitor (List.replicate (n + 1 + 1) (datagram 1 5 0))
          = ((processPacket (datagram 1 5 0)).run
            (monitor (List.replicate (n + 1) (datagram 1 5 0)))).1 := by
        rw [List.replicate_succ', monitor, List.foldl_append]
        rfl
      rw [hmonitor]
      generalize monitor (List.replicate (n + 1) (datagram 1 5 0)) = s at hrun ih ⊢
      obtain ⟨htable, hlength, hkey, hlast, hhand⟩ := ih
      have hsorted := replicate_sorted (n + 1 + 1) (datagram 1 5 0)
      rw [List.replicate_succ'] at hsorted
      have hprev : s.previous ≠ 0 := hrun.previous_ne_zero
        (fun q hq => by rw [List.eq_of_mem_replicate hq]; decide +kernel) (replicate_sorted _ _)
        (by simp)
      obtain ⟨⟨htable', hgrown⟩, hjoined, hhand'⟩ := hrun.counts hsorted htable
        (by rw [hlast]; exact Nat.le_add_right ..) (by decide) (by decide +kernel) hkey hprev hhand
        (Ends.run ExportStep _ s)
      generalize ((processPacket (datagram 1 5 0)).run s).1 = t at htable' hgrown hjoined hhand' ⊢
      refine ⟨htable', by rw [hjoined, List.length_append, hlength]; rfl, ?_, ?_, hhand'⟩
      · show (t.record 2499).flow.key = _
        rw [hgrown]
        exact hkey
      · rw [hgrown]
        rfl

/-- **The counter wraps**: after 2^32 packets of one flow, all within a second, it is 0. -/
theorem count_wraps_after_2_pow_32 :
    Run (List.replicate (2 ^ 32) (datagram 1 5 0))
        (monitor (List.replicate (2 ^ 32) (datagram 1 5 0))) .idle
      ∧ ∃ i, (monitor (List.replicate (2 ^ 32) (datagram 1 5 0))).InTable i
        ∧ (joined i (monitor (List.replicate (2 ^ 32) (datagram 1 5 0))).trace).length = 2 ^ 32
        ∧ ((monitor (List.replicate (2 ^ 32) (datagram 1 5 0))).record i).flow.npack = 0 := by
  obtain ⟨n, hn⟩ : ∃ n : ℕ, n + 1 = 2 ^ 32 := ⟨2 ^ 32 - 1, by omega⟩
  obtain ⟨htable, hlength, -⟩ := replicate_counts n
  have hrun := run_monitor (List.replicate (n + 1) (datagram 1 5 0))
  rw [hn] at htable hlength hrun
  generalize monitor (List.replicate (2 ^ 32) (datagram 1 5 0)) = s at htable hlength hrun ⊢
  refine ⟨hrun, 2499, htable, hlength, ?_⟩
  obtain ⟨S, hjoined, hrecord, -⟩ :=
    (hrun.recounts (T := fun _ => True) fun _ _ => trivial).held 2499 (.inl htable)
  rw [hjoined] at hlength
  rw [hrecord]
  show UInt32.ofNat S.packets.length = 0
  rw [hlength]
  rfl

end Forever

end Flow
