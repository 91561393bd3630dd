import XdpFlows.Flow.Accounts
import XdpFlows.Flow.Encoding
import XdpFlows.Flow.Footprint

/-!
# What gets into the store

`parsePacket` on the state of the monitor: it takes a session, parses into it, and calls
`insertFlow` only for packets the parser accepts.

* `flows_are_ipv4_iff`: which frames get a flow that do not carry IPv4.
* `parsePacket_inverts_encode`: well formed frames are handed to `insertFlow` with their fields,
  whatever the session held before.
* `rejected_changes_no_flow`: a packet that is not handed on leaves the flows as they are and costs
  at most the one session that is kept at hand.
-/

namespace Flow

open Sections SessionWindow ByteReader Relation

variable {ps : List Packet} {s t : State} {f : Phase} {p : Packet} {i : SessionId}

/-! ## The session at hand -/

/-- **Taking a session.**  It is cleared, whatever it was used for before. -/
lemma Run.acquire (h : Run ps s f) (hhand : SessionAtHand s) :
    ∃ i t, acquireSession s = (t, some i) ∧ (t.ips i).incoming = .zero ∧ t.reached = s.reached := by
  obtain ⟨⟨g, a, pend, hrep⟩, -⟩ := h.sound
  rcases hrep.owns.acquireSession_cases with ⟨hnone, -⟩ | ⟨i, pool, -, hfree, -, heq⟩ | ⟨i, -, heq⟩
  · exact absurd hhand hnone
  · exact ⟨i, _, heq, hrep.owns.cleared i (hfree ▸ List.mem_cons_self ..), rfl⟩
  · exact ⟨i, _, heq, by rw [State.setSession_self], rfl⟩

lemma popExpired_ips (drain : Bool) (idle : ExportPc) (s : State) :
    (popExpired drain idle s).ips = s.ips := by
  unfold popExpired
  split <;> rfl

/-- The export thread does not write into a cleared session. -/
lemma exportStep_cleared (h : (s.ips i).incoming = .zero) :
    ((exportStep s).ips i).incoming = .zero := by
  unfold exportStep
  cases s.exporter with
  | loop =>
      simp only
      split_ifs
      · exact h
      · rw [popExpired_ips, h]
  | popped drain n =>
      simp only
      split
      · exact h
      · rename_i j _
        show ((s.setSession j { s.ips j with
          exportationTimestamp := s.lastPacketTimestamp }).ips i).incoming = .zero
        by_cases hj : i = j
        · subst hj
          rw [State.setSession_self, h]
        · rw [State.setSession_of_ne _ _ hj, h]
  | printed drain n j =>
      have hset : ((s.setSession j { s.ips j with incoming := .zero }).ips i).incoming = .zero := by
        by_cases hj : i = j
        · subst hj
          rw [State.setSession_self]
        · rw [State.setSession_of_ne _ _ hj, h]
      simp only [releaseIPSession]
      split <;> exact hset
  | released drain n =>
      simp only [releaseNodel]
      split <;> exact h
  | draining =>
      simp only
      rw [popExpired_ips, h]
  | finished => exact h

lemma exportSteps_cleared (hst : ReflTransGen ExportStep s t) (h : (s.ips i).incoming = .zero) :
    (t.ips i).incoming = .zero := by
  induction hst with
  | refl => exact h
  | tail _ hstep ih =>
      rw [hstep]
      exact exportStep_cleared ih

/-! ### While the export thread runs -/

lemma popExpired_pool (drain : Bool) (idle : ExportPc) (s : State) :
    (popExpired drain idle s).ipSessionPool = s.ipSessionPool
      ∧ (popExpired drain idle s).auxSession = s.auxSession := by
  unfold popExpired
  split
  · exact ⟨rfl, rfl⟩
  · exact ⟨rfl, rfl⟩

/-- The export thread gives sessions back and takes none. -/
lemma exportStep_pool (s : State) : (exportStep s).auxSession = s.auxSession
    ∧ s.ipSessionPool.free.length ≤ (exportStep s).ipSessionPool.free.length := by
  unfold exportStep
  cases s.exporter with
  | loop =>
      simp only
      split_ifs
      · exact ⟨rfl, le_refl _⟩
      · rw [(popExpired_pool _ _ s).1]
        exact ⟨(popExpired_pool _ _ s).2, le_refl _⟩
  | popped drain n =>
      simp only
      split
      · exact ⟨rfl, le_refl _⟩
      · exact ⟨rfl, le_refl _⟩
  | printed drain n i =>
      simp only [releaseIPSession]
      split
      · exact ⟨rfl, le_refl _⟩
      · rename_i q hq
        refine ⟨rfl, ?_⟩
        unfold Pool.release at hq
        split at hq
        · exact absurd hq (by simp)
        · obtain rfl := Option.some.inj hq
          show s.ipSessionPool.free.length ≤ (s.ipSessionPool.free ++ [i]).length
          simp
  | released drain n =>
      simp only [releaseNodel]
      split
      · exact ⟨rfl, le_refl _⟩
      · exact ⟨rfl, le_refl _⟩
  | draining =>
      simp only
      rw [(popExpired_pool _ _ s).1]
      exact ⟨(popExpired_pool _ _ s).2, le_refl _⟩
  | finished => exact ⟨rfl, le_refl _⟩

lemma stable_atHand : Stable ExportStep SessionAtHand := by
  rintro s s' h rfl
  obtain ⟨haux, hfree⟩ := exportStep_pool s
  exact h.imp (fun hne => haux ▸ hne) fun hle => hle.trans hfree

/-- A session can be taken and cleared: one is kept, or the state is one the monitor gets to. -/
def Available (s : State) : Prop :=
  (s.auxSession ≠ none ∨ ∃ ps f, Run ps s f) ∧ SessionAtHand s

lemma stable_available : Stable ExportStep Available := by
  rintro s s' ⟨hs, hhand⟩ hstep
  refine ⟨hs.imp (fun hne => ?_) fun ⟨ps, f, h⟩ => ⟨ps, f, h.export hstep⟩, stable_atHand hhand hstep⟩
  rw [hstep, (exportStep_pool s).1]
  exact hne

lemma Available.acquire (h : Available s) :
    ∃ i t, acquireSession s = (t, some i) ∧ (t.ips i).incoming = .zero ∧ t.reached = s.reached := by
  obtain ⟨hs, hhand⟩ := h
  rcases Option.eq_none_or_eq_some s.auxSession with haux | ⟨i, haux⟩
  · obtain ⟨ps, f, h⟩ := hs.resolve_left (not_not_intro haux)
    exact h.acquire hhand
  · exact ⟨i, _, acquireSession_of_some haux, by rw [State.setSession_self], rfl⟩

/-! ## Parsing into a session -/

/-- **What parsing into a session does**, with `v` the session afterwards. -/
lemma parseInto_eq (p : Packet) (i : SessionId) (s : State) :
    ∃ v : IPSession, v.incoming = (parse p (s.ips i).incoming).flow
      ∧ parseInto p i s = match (parse p (s.ips i).incoming).verdict with
        | .ignored => (s.setSession i v, false)
        | .malformed => ({ s.setSession i v with
            countPcktsMalformed := s.countPcktsMalformed + 1 }, false)
        | .accepted => ((s.setSession i v).log (.reached p), true) := by
  refine ⟨_, ?_, rfl⟩
  split_ifs
  · rfl
  · rfl

/-- `insertFlow` is called exactly for the packets the parser accepts, with what it has found. -/
lemma parseInto_accepted (h : (parse p (s.ips i).incoming).verdict = .accepted) :
    ∃ u, parseInto p i s = (u, true) ∧ (u.ips i).incoming = (parse p (s.ips i).incoming).flow
      ∧ u.reached = s.reached ++ [p] := by
  obtain ⟨v, hv, heq⟩ := parseInto_eq p i s
  rw [h] at heq
  refine ⟨_, heq, ?_, reached_log ..⟩
  show ((s.setSession i v).ips i).incoming = _
  rw [State.setSession_self, hv]

lemma accepted_of_parseInto {u : State} (h : parseInto p i s = (u, true)) :
    (parse p (s.ips i).incoming).verdict = .accepted := by
  obtain ⟨v, -, heq⟩ := parseInto_eq p i s
  rw [heq] at h
  cases hverdict : (parse p (s.ips i).incoming).verdict with
  | ignored =>
      rw [hverdict] at h
      exact absurd (congrArg Prod.snd h) (by simp)
  | malformed =>
      rw [hverdict] at h
      exact absurd (congrArg Prod.snd h) (by simp)
  | accepted => rfl

/-! ## Frames that are not IPv4 -/

/-- `parsePacket`, called in `s`, calls `insertFlow` in `u` with session `i` (`ends_parsePacket`).  The
export thread may run between taking the session and parsing into it. -/
def Inserts (p : Packet) (s : State) (i : SessionId) (u : State) : Prop :=
  ∃ t t', acquireSession s = (t, some i) ∧ ReflTransGen ExportStep t t' ∧ parseInto p i t' = (u, true)

/-- **How `parsePacket` ends**, whatever the export thread does in between: without a session, with a
packet the parser refuses, or with the call of `insertFlow`. -/
lemma ends_parsePacket {s' : State} : Ends ExportStep (parsePacket p) s () s'
    ↔ ∃ s₁, ReflTransGen ExportStep s s₁
      ∧ ((∃ t, acquireSession s₁ = (t, none) ∧ ReflTransGen ExportStep t s')
        ∨ (∃ i t t' u, acquireSession s₁ = (t, some i) ∧ ReflTransGen ExportStep t t'
          ∧ parseInto p i t' = (u, false) ∧ ReflTransGen ExportStep u s')
        ∨ ∃ i u, Inserts p s₁ i u ∧ Ends ExportStep (insertFlow i) u () s') := by
  rw [parsePacket, ends_atomic_bind]
  refine exists_congr fun s₁ => and_congr_right fun _ => ?_
  rcases hacq : acquireSession s₁ with ⟨t, _ | i⟩
  · constructor
    · intro h
      exact Or.inl ⟨t, rfl, (ends_ret.mp h).2⟩
    · rintro (⟨t', heq, ht⟩ | ⟨i, t₁, t', u, heq, -⟩ | ⟨i, u, ⟨t₁, t', heq, -⟩, -⟩)
      · cases heq
        exact ends_ret.mpr ⟨rfl, ht⟩
      · cases heq
      · cases hacq.symm.trans heq
  · constructor
    · intro h
      obtain ⟨t', ht, h⟩ := ends_atomic_bind.mp h
      rcases hparse : parseInto p i t' with ⟨u, _ | _⟩
      · rw [hparse] at h
        exact Or.inr (Or.inl ⟨i, t, t', u, rfl, ht, hparse, (ends_ret.mp h).2⟩)
      · rw [hparse] at h
        exact Or.inr (Or.inr ⟨i, u, ⟨t, t', hacq, ht, hparse⟩, h⟩)
    · rintro (⟨t', heq, -⟩ | ⟨j, t₁, t', u, heq, ht, hparse, hu⟩ | ⟨j, u, ⟨t₁, t', heq, ht, hparse⟩, h⟩)
      · cases heq
      · cases heq
        refine ends_atomic_bind.mpr ⟨t', ht, ?_⟩
        rw [hparse]
        exact ends_ret.mpr ⟨rfl, hu⟩
      · cases hacq.symm.trans heq
        refine ends_atomic_bind.mpr ⟨t', ht, ?_⟩
        rw [hparse]
        exact h

/-- **Only IPv4 gets flows, except for frames with 1 behind their tags.**  Without a session at hand
nothing gets a flow. -/
theorem flows_are_ipv4_iff (h : Run ps s f) (p : Packet) :
    (∀ i u, Inserts p s i u → ∃ n, Carries p.bytes n
        ∧ (u.ips i).incoming.key.sourceIp = be32 p.bytes (14 + 4 * n + 12)
        ∧ (u.ips i).incoming.key.destinationIp = be32 p.bytes (14 + 4 * n + 16))
      ↔ ¬ SessionAtHand s ∨ ¬ TypeOne p := by
  constructor
  · intro hall
    rw [← not_and_or]
    rintro ⟨hhand, hone⟩
    obtain ⟨i, t, heq, -, -⟩ := h.acquire hhand
    obtain ⟨u, hu, -⟩ := parseInto_accepted (parse_typeOne hone (t.ips i).incoming)
    obtain ⟨n, hcarries, -⟩ := hall i u ⟨t, t, heq, .refl, hu⟩
    exact hcarries.not_typeOne hone
  · rintro hor i u ⟨t, t', heq, -, hu⟩
    have hacc := accepted_of_parseInto hu
    obtain ⟨u', hu', hflow, -⟩ := parseInto_accepted hacc
    obtain rfl : u' = u := congrArg Prod.fst (hu'.symm.trans hu)
    rw [hflow]
    refine (parse_accepted hacc).resolve_right (hor.resolve_left (not_not_intro ?_))
    obtain ⟨⟨g, a, pend, hrep⟩, -⟩ := h.sound
    rcases hrep.owns.acquireSession_cases with ⟨-, hnone⟩ | ⟨j, pool, -, hfree, hok, -⟩
        | ⟨j, haux, -⟩
    · rw [hnone] at heq
      exact absurd (congrArg Prod.snd heq) (by simp)
    · refine Or.inr ?_
      have hpos := List.length_pos_iff.mpr hok.nonempty
      rw [hfree, List.length_cons]
      omega
    · exact Or.inl (by simp [haux])

lemma datagram_not_typeOne (port : UInt8) (sec usec : UInt64) : ¬ TypeOne (datagram port sec usec) := by
  rintro ⟨n, htags, hone, -⟩
  have htype : be16 (datagram port sec usec).bytes 12 = 0x0800 := by
    show (0x08 : UInt8).toUInt16 <<< 8 ||| (0 : UInt8).toUInt16 = 0x0800
    decide
  cases n with
  | zero => exact absurd (htype.symm.trans hone) (by decide)
  | succ n => exact absurd (htype.symm.trans (htags 0 (Nat.succ_pos n))) (by decide)

lemma sessionAtHand_initialState : SessionAtHand initialState := by
  refine Or.inr ?_
  simp [initialState, Pool.alloc, maxPoolSession]

/-- The first packet, a UDP datagram, gets a flow and carries IPv4. -/
theorem flows_are_ipv4_iff_datagram : ∃ i u, Inserts (datagram 1 10 0) initialState i u
    ∧ ∃ n, Carries (datagram 1 10 0).bytes n
      ∧ (u.ips i).incoming.key.sourceIp = be32 (datagram 1 10 0).bytes (14 + 4 * n + 12)
      ∧ (u.ips i).incoming.key.destinationIp = be32 (datagram 1 10 0).bytes (14 + 4 * n + 16) := by
  obtain ⟨i, t, heq, hzero, -⟩ := Run.start.acquire sessionAtHand_initialState
  have haccepted : (parse (datagram 1 10 0) (t.ips i).incoming).verdict = .accepted := by
    rw [hzero]
    decide +kernel
  obtain ⟨u, hu, -⟩ := parseInto_accepted haccepted
  have hinserts : Inserts (datagram 1 10 0) initialState i u := ⟨t, t, heq, .refl, hu⟩
  have hipv4 := (flows_are_ipv4_iff Run.start (datagram 1 10 0)).mpr
    (Or.inr (datagram_not_typeOne 1 10 0))
  exact ⟨i, u, hinserts, hipv4 i u hinserts⟩

/-- An 802.3 frame, with a length of 1 where Ethernet has the EtherType. -/
def lengthOne : Packet where
  bytes n := if n = 13 then 1 else 0
  tvSec := 10
  tvUsec := 0
  caplen := 60
  len := 60

/-- The frame is taken for an ICMP message and gets a flow. -/
theorem length_field_gets_flow :
    Run [] initialState .idle ∧ (∃ i u, Inserts lengthOne initialState i u)
      ∧ (¬ ∃ n, Carries lengthOne.bytes n) ∧ (monitor [lengthOne]).flowTable 2 ≠ [] := by
  have hone : TypeOne lengthOne := ⟨0, tags_zero _ _, rfl, by decide⟩
  obtain ⟨i, t, heq, -, -⟩ := Run.start.acquire sessionAtHand_initialState
  obtain ⟨u, hu, -⟩ := parseInto_accepted (parse_typeOne hone (t.ips i).incoming)
  refine ⟨.start, ⟨i, u, t, t, heq, .refl, hu⟩, ?_, by decide +kernel⟩
  rintro ⟨n, hn⟩
  exact hn.not_typeOne hone

/-! ## Parsing inverts encoding -/

section Reached

variable {index : ℕ}

lemma getNodel_reached (s : State) : (getNodel s).1.reached = s.reached := by
  unfold getNodel
  split
  · rfl
  · exact (reached_log _ _).trans (List.append_nil _)
  · rfl

lemma updateFlowTable_reached (s : State) (j : SessionId) (newFlow : IPFlow) :
    (updateFlowTable s j newFlow).reached = s.reached := by
  unfold updateFlowTable
  simp only
  split <;> rfl

lemma insertFlowLookup_reached : (insertFlowLookup i s).1.reached = s.reached := by
  unfold insertFlowLookup
  simp only
  split
  · rfl
  · split
    · rfl
    · split
      · exact (reached_log _ _).trans (List.append_nil _)
      · rw [reached_log, updateFlowTable_reached, reached_log]
        simp [Event.reached?]

lemma insertFlowTableFirst_reached : (insertFlowTableFirst i s).1.reached = s.reached := by
  unfold insertFlowTableFirst
  simp only
  split
  · exact getNodel_reached _
  · exact getNodel_reached _

lemma insertFlowTableSecond_reached : (insertFlowTableSecond i index s).1.reached = s.reached := by
  unfold insertFlowTableSecond
  simp only
  split
  · exact getNodel_reached _
  · split
    · exact getNodel_reached _
    · refine Eq.trans ?_ (getNodel_reached s)
      exact (reached_log _ _).trans (List.append_nil _)

lemma insertFlowTableUndo_reached : (insertFlowTableUndo s).reached = s.reached := by
  unfold insertFlowTableUndo releaseNodel
  split
  · rfl
  · split <;> rfl

/-- `insertFlow` does not call itself. -/
lemma insertFlow_reached : ((insertFlow i).run s).1.reached = s.reached := by
  have heach : (insertFlow i).Each fun s t => t.reached = s.reached := by
    refine Prog.Each.bind (.atomic fun _ => insertFlowLookup_reached) fun found => ?_
    cases found with
    | done => trivial
    | insert index =>
        refine Prog.Each.bind (.atomic fun _ => insertFlowTableFirst_reached) fun ret => ?_
        split_ifs
        · trivial
        · refine Prog.Each.bind (.atomic fun _ => insertFlowTableSecond_reached) fun ret => ?_
          split_ifs
          · exact .act fun _ => insertFlowTableUndo_reached
          · trivial
  exact heach.run (fun _ => rfl) (fun _ _ _ h h' => h'.trans h) s

end Reached

/-- `parsePacket` alone, when the parser accepts. -/
lemma parsePacket_accepted {t u : State} (hacq : acquireSession s = (t, some i))
    (hparse : parseInto p i t = (u, true)) :
    (parsePacket p).run s = (insertFlow i).run u := by
  rw [parsePacket, Prog.run_bind]
  simp only [Prog.atomic, Prog.run, hacq, Prog.run_bind, hparse, if_true]

/-- **Well formed frames are handed to `insertFlow` with their fields**, once, whatever the session
at hand was used for before and whatever the export thread does meanwhile: that call is all that is left
to do of `parsePacket`, run alone or interleaved. -/
theorem parsePacket_inverts_encode {frame : EthFrame} (hframe : frame.WellFormed)
    (hold : Holds p.bytes 0 frame.encode) (hcap : frame.encode.length ≤ p.caplen.toNat)
    (hs : s.auxSession ≠ none ∨ ∃ ps f, Run ps s f) (hhand : SessionAtHand s) :
    (∃ i t, acquireSession s = (t, some i) ∧ ∀ t', ReflTransGen ExportStep t t' →
      ∃ u, parseInto p i t' = (u, true) ∧ (u.ips i).incoming = frame.flow p.len
        ∧ u.reached = t'.reached ++ [p])
      ∧ ((parsePacket p).run s).1.reached = s.reached ++ [p]
      ∧ (∃ i u, Inserts p s i u ∧ (u.ips i).incoming = frame.flow p.len
        ∧ (parsePacket p).run s = (insertFlow i).run u)
      ∧ ∀ s', Ends ExportStep (parsePacket p) s () s' →
        ∃ s₁ i u, ReflTransGen ExportStep s s₁ ∧ Inserts p s₁ i u
          ∧ (u.ips i).incoming = frame.flow p.len ∧ Ends ExportStep (insertFlow i) u () s' := by
  have havail : Available s := ⟨hs, hhand⟩
  have hparse : ∀ {i t t'}, (t.ips i).incoming = .zero → ReflTransGen ExportStep t t' →
      ∃ u, parseInto p i t' = (u, true) ∧ (u.ips i).incoming = frame.flow p.len
        ∧ u.reached = t'.reached ++ [p] := by
    intro i t t' hzero ht
    have hdecode := parse_encode hframe hold hcap
    rw [← exportSteps_cleared ht hzero] at hdecode
    obtain ⟨u, hu, hflow, hu'⟩ := parseInto_accepted (congrArg Parsed.verdict hdecode)
    exact ⟨u, hu, hflow.trans (congrArg Parsed.flow hdecode), hu'⟩
  obtain ⟨i, t, hacq, hzero, hreached⟩ := havail.acquire
  obtain ⟨u, hu, hflow, hu'⟩ := hparse hzero .refl
  refine ⟨⟨i, t, hacq, fun t' ht => hparse hzero ht⟩, ?_,
    ⟨i, u, ⟨t, t, hacq, .refl, hu⟩, hflow, parsePacket_accepted hacq hu⟩, fun s' hend => ?_⟩
  · rw [parsePacket_accepted hacq hu, insertFlow_reached, hu', hreached]
  · obtain ⟨s₁, hs₁, hcases⟩ := ends_parsePacket.mp hend
    obtain ⟨j, t₁, hacq₁, hzero₁, -⟩ := (stable_available.star havail hs₁).acquire
    rcases hcases with ⟨t₂, heq, -⟩ | ⟨k, t₂, t', v, heq, ht, hrefused, -⟩ | ⟨k, v, hinserts, hins⟩
    · cases hacq₁.symm.trans heq
    · cases hacq₁.symm.trans heq
      obtain ⟨w, hw, -⟩ := hparse hzero₁ ht
      cases hw.symm.trans hrefused
    · refine ⟨s₁, k, v, hs₁, hinserts, ?_, hins⟩
      obtain ⟨t₂, t', heq, ht, hv⟩ := hinserts
      cases hacq₁.symm.trans heq
      obtain ⟨w, hw, hwflow, -⟩ := hparse hzero₁ ht
      cases hw.symm.trans hv
      exact hwflow

/-- A UDP datagram behind two tags, with a word of IP options. -/
def taggedFrame : EthFrame where
  destinationMac := fun k => if k.val = 0 then 2 else if k.val = 5 then 1 else 0
  sourceMac := fun k => if k.val = 0 then 2 else if k.val = 5 then 2 else 0
  tags := [0x6064, 0x0007]
  ip := ⟨0, 32, 0, 0, 64, 0, 0x0A000001, 0x0A000002, [1, 1, 1, 0]⟩
  transport := .udp 5000 53 8 0

/-- It in a chunk that held something else before. -/
def taggedPacket : Packet where
  bytes := ofList taggedFrame.encode 0xFF
  tvSec := 10
  tvUsec := 0
  caplen := 54
  len := 54

/-- The first packet of a run, parsed while the export thread waits and while it does not. -/
theorem parsePacket_inverts_encode_tagged :
    ((parsePacket taggedPacket).run initialState).1.reached = initialState.reached ++ [taggedPacket]
      ∧ (∃ i u, Inserts taggedPacket initialState i u
        ∧ (u.ips i).incoming = taggedFrame.flow taggedPacket.len
        ∧ (parsePacket taggedPacket).run initialState = (insertFlow i).run u)
      ∧ ∀ s', Ends ExportStep (parsePacket taggedPacket) initialState () s' →
        ∃ s₁ i u, ReflTransGen ExportStep initialState s₁ ∧ Inserts taggedPacket s₁ i u
          ∧ (u.ips i).incoming = taggedFrame.flow taggedPacket.len
          ∧ Ends ExportStep (insertFlow i) u () s' := by
  have hfits : 8 ≤ taggedFrame.ip.totalLen.toNat - taggedFrame.ip.hLen := by decide
  have hframe : taggedFrame.WellFormed := ⟨by decide, by decide, by decide, hfits⟩
  have hold : Holds taggedPacket.bytes 0 taggedFrame.encode := holds_ofList _ _
  exact (parsePacket_inverts_encode hframe hold (by decide) (Or.inr ⟨[], .idle, .start⟩)
    sessionAtHand_initialState).2

/-! ## Packets that are not handed on -/

/-- The flows and the node pool are as they were; at most one session went from the pool to
`aux_session`. -/
structure Spared (s t : State) : Prop where
  flowTable : t.flowTable = s.flowTable
  activeFlowList : t.activeFlowList = s.activeFlowList
  expiredFlowList : t.expiredFlowList = s.expiredFlowList
  flagsExpiredFlowList : t.flagsExpiredFlowList = s.flagsExpiredFlowList
  exporter : t.exporter = s.exporter
  nodelPool : t.nodelPool = s.nodelPool
  nodeData : t.nodeData = s.nodeData
  sessions : ∀ n ∈ s.buckets ++ s.leaving, ∀ i, s.nodeData n = .session i → t.ips i = s.ips i
  pool : (t.ipSessionPool = s.ipSessionPool ∧ t.auxSession = s.auxSession)
    ∨ (s.auxSession = none ∧ ∃ i, t.auxSession = some i
      ∧ s.ipSessionPool.free = i :: t.ipSessionPool.free)

lemma Spared.refl (s : State) : Spared s s :=
  ⟨rfl, rfl, rfl, rfl, rfl, rfl, rfl, fun _ _ _ _ => rfl, Or.inl ⟨rfl, rfl⟩⟩

lemma Spared.trans {u : State} (h : Spared s t) (h' : Spared t u) : Spared s u := by
  have hplaces : t.buckets ++ t.leaving = s.buckets ++ s.leaving := by
    simp only [State.buckets, State.leaving, h.flowTable, h.exporter, h.expiredFlowList,
      h.flagsExpiredFlowList]
  refine ⟨h'.flowTable.trans h.flowTable, h'.activeFlowList.trans h.activeFlowList,
    h'.expiredFlowList.trans h.expiredFlowList,
    h'.flagsExpiredFlowList.trans h.flagsExpiredFlowList, h'.exporter.trans h.exporter,
    h'.nodelPool.trans h.nodelPool, h'.nodeData.trans h.nodeData, fun n hn i hi => ?_, ?_⟩
  · have hn' : n ∈ t.buckets ++ t.leaving := by rwa [hplaces]
    have hi' : t.nodeData n = .session i := by rwa [h.nodeData]
    exact (h'.sessions n hn' i hi').trans (h.sessions n hn i hi)
  · rcases h.pool with ⟨hpool, haux⟩ | ⟨hnone, i, haux, hfree⟩
    · rw [← hpool, ← haux]
      exact h'.pool
    · rcases h'.pool with ⟨hpool', haux'⟩ | ⟨hnone', -⟩
      · exact Or.inr ⟨hnone, i, haux'.trans haux, by rw [hpool', hfree]⟩
      · exact absurd (hnone'.symm.trans haux) (by simp)

/-- At most one of the two counters goes up, by one. -/
def CountsOnce (s t : State) : Prop :=
  (t.countPcktsMalformed = s.countPcktsMalformed ∧ t.unprocessedPackets = s.unprocessedPackets)
    ∨ (t.countPcktsMalformed = s.countPcktsMalformed + 1
      ∧ t.unprocessedPackets = s.unprocessedPackets)
    ∨ (t.countPcktsMalformed = s.countPcktsMalformed
      ∧ t.unprocessedPackets = s.unprocessedPackets + 1)

/-- Sessions in the table and on their way out are none of those `parsePacket` writes to. -/
lemma Owns.ne_of_apart {g : Layout} (h : Owns g s)
    (hapart : (∀ e ∈ g.live, e.sess ≠ i) ∧ ∀ w ∈ g.gone, w.2 ≠ i) {n : NodeId}
    (hn : n ∈ s.buckets ++ s.leaving) {j : SessionId} (hj : s.nodeData n = .session j) : j ≠ i := by
  rcases List.mem_append.mp hn with hn | hn
  · obtain ⟨e, he, rfl⟩ := List.mem_map.mp (h.buckets_perm.mem_iff.mp hn)
    rw [(h.linked e he).bucket] at hj
    cases hj
    exact hapart.1 e he
  · rw [h.leaving_eq] at hn
    obtain ⟨w, hw, rfl⟩ := List.mem_map.mp hn
    rw [h.left w hw] at hj
    cases hj
    exact hapart.2 w hw

/-- `parsePacket` alone, without a session at hand. -/
lemma parsePacket_none (hacq : acquireSession s = (t, none)) : (parsePacket p).run s = (t, ()) := by
  rw [parsePacket, Prog.run_bind]
  simp only [Prog.atomic, Prog.run, hacq]

/-- `parsePacket` alone, when the parser does not accept. -/
lemma parsePacket_refused {u : State} (hacq : acquireSession s = (t, some i))
    (hparse : parseInto p i t = (u, false)) : (parsePacket p).run s = (u, ()) := by
  rw [parsePacket, Prog.run_bind]
  simp only [Prog.atomic, Prog.run, hacq, Prog.run_bind, hparse, Bool.false_eq_true, if_false]

/-- A refused packet is seen in the session it was parsed into and in one counter. -/
lemma parseInto_refused (h : (parse p (s.ips i).incoming).verdict ≠ .accepted) :
    ∃ v k, parseInto p i s = ({ s.setSession i v with countPcktsMalformed := k }, false)
      ∧ (k = s.countPcktsMalformed ∨ k = s.countPcktsMalformed + 1) := by
  obtain ⟨v, -, heq⟩ := parseInto_eq p i s
  cases hverdict : (parse p (s.ips i).incoming).verdict with
  | ignored => exact ⟨v, _, by rw [heq, hverdict]; rfl, Or.inl rfl⟩
  | malformed => exact ⟨v, _, by rw [heq, hverdict], Or.inr rfl⟩
  | accepted => exact absurd hverdict h

/-- **`parsePacket` on a packet the parser refuses.** -/
lemma Owns.parsePacket_spared {g : Layout} (h : Owns g s)
    (hrefused : ∀ i t, acquireSession s = (t, some i) →
      (parse p (t.ips i).incoming).verdict ≠ .accepted) :
    Spared s ((parsePacket p).run s).1 ∧ CountsOnce s ((parsePacket p).run s).1
      ∧ ((parsePacket p).run s).1.reached = s.reached := by
  rcases h.acquireSession_cases with ⟨-, hacq⟩ | ⟨i, pool, haux, hfree, -, hacq⟩ | ⟨i, haux, hacq⟩
  · rw [parsePacket_none hacq]
    exact ⟨⟨rfl, rfl, rfl, rfl, rfl, rfl, rfl, fun _ _ _ _ => rfl, Or.inl ⟨rfl, rfl⟩⟩,
      Or.inr (Or.inr ⟨rfl, rfl⟩), (reached_log _ _).trans (List.append_nil _)⟩
  · obtain ⟨v, k, hparse, hk⟩ := parseInto_refused (hrefused i _ hacq)
    rw [parsePacket_refused hacq hparse]
    have hapart : (∀ e ∈ g.live, e.sess ≠ i) ∧ ∀ w ∈ g.gone, w.2 ≠ i := by
      refine h.session_apart ?_
      rw [hfree, List.count_cons_self]
      omega
    refine ⟨⟨rfl, rfl, rfl, rfl, rfl, rfl, rfl, fun n hn j hj => ?_,
      Or.inr ⟨haux, i, rfl, hfree⟩⟩, ?_, rfl⟩
    · exact Function.update_of_ne (h.ne_of_apart hapart hn hj) ..
    · exact hk.elim (fun hk => Or.inl ⟨hk, rfl⟩) fun hk => Or.inr (Or.inl ⟨hk, rfl⟩)
  · obtain ⟨v, k, hparse, hk⟩ := parseInto_refused (hrefused i _ hacq)
    rw [parsePacket_refused hacq hparse]
    refine ⟨⟨rfl, rfl, rfl, rfl, rfl, rfl, rfl, fun n hn j hj => ?_, Or.inl ⟨rfl, rfl⟩⟩, ?_, rfl⟩
    · have hne := h.ne_of_apart (h.aux_apart haux) hn hj
      exact (Function.update_of_ne hne ..).trans (Function.update_of_ne hne ..)
    · exact hk.elim (fun hk => Or.inl ⟨hk, rfl⟩) fun hk => Or.inr (Or.inl ⟨hk, rfl⟩)

/-- A packet the parser accepts shows in the trace. -/
lemma Owns.refused_of_reached {g : Layout} (h : Owns g s)
    (hrej : ((parsePacket p).run s).1.reached = s.reached) (i : SessionId) (t : State)
    (hacq : acquireSession s = (t, some i)) : (parse p (t.ips i).incoming).verdict ≠ .accepted := by
  have hreached : t.reached = s.reached := by
    have hfst : t = (acquireSession s).1 := congrArg Prod.fst hacq.symm
    rw [hfst]
    rcases h.acquireSession_cases with ⟨-, heq⟩ | ⟨_, _, -, -, -, heq⟩ | ⟨_, -, heq⟩
    · rw [heq]
      exact (reached_log _ _).trans (List.append_nil _)
    · rw [heq]
      rfl
    · rw [heq]
      rfl
  intro hacc
  obtain ⟨u, hu, -, hu'⟩ := parseInto_accepted hacc
  rw [parsePacket_accepted hacq hu, insertFlow_reached, hu', hreached] at hrej
  simp at hrej

/-- The state in which `parsePacket` is called when neither `initData` nor `perSecOps` is. -/
def stampedState (p : Packet) (s : State) : State :=
  sameSecond (stampClock p s)

/-- The clock and the trace are all that has changed by then. -/
lemma stampedState_eq (p : Packet) (s : State) : ∃ last current previous, stampedState p s
    = { s with lastPacketTimestamp := last, current := current, previous := previous }.log
        (.received p) := by
  unfold stampedState sameSecond stampClock
  generalize p.ts = t
  generalize p.sec = u
  split_ifs
  · exact ⟨_, _, _, rfl⟩
  · exact ⟨_, _, _, rfl⟩
  · exact ⟨_, _, _, rfl⟩

-- with `p.ts` for a variable the kernel would compare 64-bit words here
lemma stamped_seconds (p : Packet) (s : State) (last current : UInt64) :
    ({ s with lastPacketTimestamp := last, current := current }.log (.received p)).previous
        = s.previous
      ∧ ({ s with lastPacketTimestamp := last, current := current }.log (.received p)).current
        = current :=
  ⟨rfl, rfl⟩

/-- `process_packet` alone, when it calls neither `initData` nor `perSecOps`. -/
lemma processPacket_quiet (hinit : s.previous ≠ 0) (hsec : ¬ s.previous < p.sec) :
    ((processPacket p).run s).1 = if 14 ≤ p.caplen then ((parsePacket p).run (stampedState p s)).1
      else stampedState p s := by
  have hprevious : (stampClock p s).previous = s.previous := (stamped_seconds p s p.ts p.sec).1
  have hcurrent : (stampClock p s).current = p.sec := (stamped_seconds p s p.ts p.sec).2
  have hfirst : firstPacket (stampClock p s) = (stampClock p s, false) := by
    simp only [firstPacket, hprevious, if_neg hinit, hcurrent, hsec, decide_false]
  rw [processPacket, Prog.run_bind]
  simp only [Prog.act, Prog.run, Prog.run_bind, Prog.atomic, hfirst, Bool.false_eq_true, if_false,
    stampedState]
  split_ifs
  · rfl
  · rfl

/-- `qs` are processed one after the other from `s` to `t`; none of them is handed to `insertFlow`,
and none makes `initData` or `perSecOps` run. -/
inductive Rejected : State → List Packet → State → Prop where
  | nil (s : State) : Rejected s [] s
  | cons {s : State} {p : Packet} {qs : List Packet} {t : State} (hinit : s.previous ≠ 0)
      (hsec : ¬ s.previous < p.sec) (hrej : ((processPacket p).run s).1.reached = s.reached)
      (h : Rejected ((processPacket p).run s).1 qs t) : Rejected s (p :: qs) t

/-- Setting the clock touches nothing else. -/
lemma Run.stamped (h : Run ps s .idle) (p : Packet) :
    ∃ g, Owns g (stampedState p s) ∧ Spared s (stampedState p s)
      ∧ (stampedState p s).reached = s.reached
      ∧ (stampedState p s).countPcktsMalformed = s.countPcktsMalformed
      ∧ (stampedState p s).unprocessedPackets = s.unprocessedPackets := by
  obtain ⟨g, a, hrep, -, -⟩ := h.settled (Or.inl rfl)
  obtain ⟨last, current, previous, heq⟩ := stampedState_eq p s
  rw [heq]
  refine ⟨g, { hrep.owns with nodes := hrep.owns.nodes }, ?_, ?_, rfl, rfl⟩
  · exact ⟨rfl, rfl, rfl, rfl, rfl, rfl, rfl, fun _ _ _ _ => rfl, Or.inl ⟨rfl, rfl⟩⟩
  · exact (reached_log _ _).trans (List.append_nil _)

/-- What `Owns.parsePacket_spared` says of `process_packet`. -/
lemma Run.spared (h : Run ps s .idle) (hinit : s.previous ≠ 0) (hsec : ¬ s.previous < p.sec)
    (hrefused : 14 ≤ p.caplen → ∀ i t, acquireSession (stampedState p s) = (t, some i) →
      (parse p (t.ips i).incoming).verdict ≠ .accepted) :
    Spared s ((processPacket p).run s).1 ∧ CountsOnce s ((processPacket p).run s).1
      ∧ ((processPacket p).run s).1.reached = s.reached := by
  obtain ⟨g, howns, hspared, hreached, hcounts⟩ := h.stamped p
  rw [processPacket_quiet hinit hsec]
  split_ifs with hcap
  · obtain ⟨hspared', hcounts', hreached'⟩ := howns.parsePacket_spared (hrefused hcap)
    refine ⟨hspared.trans hspared', ?_, hreached'.trans hreached⟩
    rw [CountsOnce, hcounts.1, hcounts.2] at hcounts'
    exact hcounts'
  · exact ⟨hspared, Or.inl hcounts, hreached⟩

/-- A packet that does not get to `insertFlow` was refused by the parser. -/
lemma Run.refused (h : Run ps s .idle) (hinit : s.previous ≠ 0) (hsec : ¬ s.previous < p.sec)
    (hrej : ((processPacket p).run s).1.reached = s.reached) (hcap : 14 ≤ p.caplen) (i : SessionId)
    (t : State) (hacq : acquireSession (stampedState p s) = (t, some i)) :
    (parse p (t.ips i).incoming).verdict ≠ .accepted := by
  obtain ⟨g, howns, -, hreached, -⟩ := h.stamped p
  rw [processPacket_quiet hinit hsec, if_pos hcap, ← hreached] at hrej
  exact howns.refused_of_reached hrej i t hacq

/-- **A packet that is not accepted changes no flow**, and any number of them in a row costs at most
one session. -/
theorem rejected_changes_no_flow (h : Run ps s .idle) :
    (∀ p, s.previous ≠ 0 → ¬ s.previous < p.sec →
      ((processPacket p).run s).1.reached = s.reached →
        Spared s ((processPacket p).run s).1 ∧ CountsOnce s ((processPacket p).run s).1)
      ∧ ∀ qs t, Rejected s qs t → Spared s t := by
  refine ⟨fun p hinit hsec hrej => ?_, fun qs t hrej => ?_⟩
  · obtain ⟨hspared, hcounts, -⟩ := h.spared hinit hsec (h.refused hinit hsec hrej)
    exact ⟨hspared, hcounts⟩
  · induction hrej generalizing ps with
    | nil s => exact Spared.refl s
    | @cons s p qs t hinit hsec hrej _ ih =>
        exact (h.spared hinit hsec (h.refused hinit hsec hrej)).1.trans (ih (h.packet p).finish)

/-- An ARP frame. -/
def arp : Packet where
  bytes n := if n = 12 then 0x08 else if n = 13 then 0x06 else 0
  tvSec := 10
  tvUsec := 500000
  caplen := 60
  len := 60

lemma arp_ignored (incoming : IPFlow) : (parse arp incoming).verdict = .ignored := by
  rfl

/-- An ARP packet while a flow is in the table. -/
theorem rejected_changes_no_flow_arp :
    Spared (monitor [datagram 1 10 0]) ((processPacket arp).run (monitor [datagram 1 10 0])).1
      ∧ CountsOnce (monitor [datagram 1 10 0])
        ((processPacket arp).run (monitor [datagram 1 10 0])).1 := by
  have hrun := run_monitor [datagram 1 10 0]
  have hinit : (monitor [datagram 1 10 0]).previous ≠ 0 := by decide +kernel
  have hsec : ¬ (monitor [datagram 1 10 0]).previous < arp.sec := by decide +kernel
  refine (rejected_changes_no_flow hrun).1 arp hinit hsec (hrun.spared hinit hsec ?_).2.2
  intro _ i t _ hacc
  exact absurd ((arp_ignored _).symm.trans hacc) (by decide)

end Flow
