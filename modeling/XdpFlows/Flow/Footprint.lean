import XdpFlows.Flow.Monitor
import XdpFlows.Flow.Reads

/-!
# What a packet's bytes decide

The parser is given a pointer into a UMEM chunk and `caplen`; behind the packet the chunk still
holds bytes of earlier packets.  If the parser stays below `caplen`, `process_packet` cannot tell
two chunks apart that hold the same packet.

The trace is no part of the memory, but it records packets with their bytes, so two runs are
compared by their `memory`.  `Alike` relates programs that do the same to it; no section reads the
trace, which is what the `alike_` lemmas say.
-/

namespace Flow

open Sections ByteReader Reader

/-- The state without its trace. -/
def State.memory (s : State) : State :=
  { s with trace := [] }

lemma State.eq_of_memory {s t : State} (h : s.memory = t.memory) :
    s = { t with trace := s.trace } := by
  have h' := congrArg (fun m : State => { m with trace := s.trace }) h
  exact h'

/-- From states that differ in the trace only, the programs end in such states, with the same
result. -/
def Alike {α : Type} (m m' : Prog State α) : Prop :=
  ∀ s l, (m'.run { s with trace := l }).1.memory = (m.run s).1.memory
    ∧ (m'.run { s with trace := l }).2 = (m.run s).2

namespace Alike

variable {α β : Type}

lemma ret (a : α) : Alike (.ret a) (.ret a) :=
  fun _ _ => ⟨rfl, rfl⟩

lemma bind {m m' : Prog State α} {f f' : α → Prog State β} (h : Alike m m')
    (hf : ∀ a, Alike (f a) (f' a)) : Alike (m >>= f) (m' >>= f') := by
  intro s l
  obtain ⟨hmem, hval⟩ := h s l
  rw [Prog.run_bind, Prog.run_bind, hval, State.eq_of_memory hmem]
  exact hf _ _ _

lemma ite {c : Prop} [Decidable c] {m m' k k' : Prog State α} (hm : Alike m m') (hk : Alike k k') :
    Alike (if c then m else k) (if c then m' else k') := by
  split
  · exact hm
  · exact hk

lemma processed {s : State} {m m' : Prog State α} (h : Alike m m') :
    (m'.run s).1.memory = (m.run s).1.memory :=
  (h s s.trace).1

end Alike

/-! ## The sections -/

lemma alike_acquireSession : Alike (Prog.atomic acquireSession) (Prog.atomic acquireSession) := by
  intro s l
  simp only [Prog.atomic, Prog.run]
  rcases Option.eq_none_or_eq_some s.auxSession with haux | ⟨i, haux⟩
  · have haux' : State.auxSession { s with trace := l } = none := haux
    rw [acquireSession_of_none haux, acquireSession_of_none haux']
    dsimp only
    rcases s.ipSessionPool.get with _ | ⟨p, _ | i⟩
    · exact ⟨rfl, rfl⟩
    · exact ⟨rfl, rfl⟩
    · exact ⟨rfl, rfl⟩
  · have haux' : State.auxSession { s with trace := l } = some i := haux
    rw [acquireSession_of_some haux, acquireSession_of_some haux']
    exact ⟨rfl, rfl⟩

lemma alike_insertFlowTableFirst (i : SessionId) :
    Alike (Prog.atomic (insertFlowTableFirst i)) (Prog.atomic (insertFlowTableFirst i)) := by
  rintro ⟨nodelPool⟩ l
  simp only [Prog.atomic, Prog.run]
  unfold insertFlowTableFirst getNodel
  dsimp only [State.setSession]
  rcases nodelPool.get with _ | ⟨q, _ | n⟩
  · exact ⟨rfl, rfl⟩
  · exact ⟨rfl, rfl⟩
  · exact ⟨rfl, rfl⟩

lemma alike_insertFlowTableSecond (i : SessionId) (index : ℕ) :
    Alike (Prog.atomic (insertFlowTableSecond i index))
      (Prog.atomic (insertFlowTableSecond i index)) := by
  rintro ⟨nodelPool, _, _, _, _, _, _, _, _, _, _, naux⟩ l
  simp only [Prog.atomic, Prog.run]
  unfold insertFlowTableSecond getNodel
  dsimp only
  rcases nodelPool.get with _ | ⟨q, _ | n⟩
  · exact ⟨rfl, rfl⟩
  · exact ⟨rfl, rfl⟩
  · cases naux with
    | none => exact ⟨rfl, rfl⟩
    | some naux => exact ⟨rfl, rfl⟩

lemma alike_insertFlowTableUndo :
    Alike (Prog.act insertFlowTableUndo) (Prog.act insertFlowTableUndo) := by
  rintro ⟨⟩ l
  simp only [Prog.act, Prog.run, and_true]
  unfold insertFlowTableUndo releaseNodel
  dsimp only
  repeat' split
  all_goals rfl

lemma alike_insertFlowLookup (i : SessionId) :
    Alike (Prog.atomic (insertFlowLookup i)) (Prog.atomic (insertFlowLookup i)) := by
  intro s l
  simp only [Prog.atomic, Prog.run]
  unfold insertFlowLookup
  dsimp only
  rw [show listSearch { s with trace := l } = listSearch s from rfl]
  rcases listSearch s (s.flowTable (getIndex (s.ips i).incoming)) i with _ | n
  · exact ⟨rfl, rfl⟩
  dsimp only
  rw [show State.sessionAt { s with trace := l } = s.sessionAt from rfl]
  rcases s.sessionAt n with _ | j
  · exact ⟨rfl, rfl⟩
  by_cases hexp : hasExpired (s.ips j).lastpacketTimestamp s.lastPacketTimestamp = true
  · simp only [State.log, hexp, if_true, and_true]
    rfl
  · simp only [State.log, hexp, Bool.false_eq_true, if_false, and_true]
    unfold updateFlowTable
    dsimp only
    rcases (s.ips j).currentFlow with _ | c
    · rfl
    · cases (s.ips j).activeNode with
      | none => rfl
      | some m => rfl

lemma alike_insertFlow (i : SessionId) : Alike (insertFlow i) (insertFlow i) := by
  refine Alike.bind (alike_insertFlowLookup i) fun found => ?_
  cases found with
  | done => exact Alike.ret ()
  | insert index =>
      refine Alike.bind (alike_insertFlowTableFirst i) fun _ => Alike.ite (Alike.ret ()) ?_
      refine Alike.bind (alike_insertFlowTableSecond i index) fun _ => ?_
      exact Alike.ite alike_insertFlowTableUndo (Alike.ret ())

lemma alike_cleanupStep (n : NodeId) :
    Alike (Prog.atomic (cleanupStep n)) (Prog.atomic (cleanupStep n)) := by
  rintro ⟨⟩ l
  simp only [Prog.atomic, Prog.run]
  unfold cleanupStep unlinkSession releaseNodel State.sessionAt
  dsimp only [State.log, State.setBucket, State.setData]
  repeat' split
  all_goals exact ⟨rfl, rfl⟩

lemma alike_flagsStep (n : NodeId) :
    Alike (Prog.atomic (flagsStep n)) (Prog.atomic (flagsStep n)) := by
  rintro ⟨⟩ l
  simp only [Prog.atomic, Prog.run]
  unfold flagsStep unlinkSession releaseNodel State.sessionAt
  dsimp only [State.setBucket, State.setData]
  repeat' split
  all_goals exact ⟨rfl, rfl⟩

lemma alike_cleanupLoop (fuel : ℕ) (n : Option NodeId) :
    Alike (cleanupLoop fuel n) (cleanupLoop fuel n) := by
  induction fuel generalizing n with
  | zero =>
      cases n with
      | none => exact Alike.ret ()
      | some n => exact fun s l => ⟨rfl, rfl⟩
  | succ fuel ih =>
      cases n with
      | none => exact Alike.ret ()
      | some n => exact Alike.bind (alike_cleanupStep n) ih

lemma alike_flagsLoop (fuel : ℕ) (n : Option NodeId) :
    Alike (flagsLoop fuel n) (flagsLoop fuel n) := by
  induction fuel generalizing n with
  | zero =>
      cases n with
      | none => exact Alike.ret ()
      | some n => exact fun s l => ⟨rfl, rfl⟩
  | succ fuel ih =>
      cases n with
      | none => exact Alike.ret ()
      | some n => exact Alike.bind (alike_flagsStep n) ih

lemma alike_perSecOps : Alike perSecOps perSecOps := by
  refine Alike.bind (m := Prog.act countSeconds) ?_ fun _ => Alike.bind ?_ fun _ => ?_
  · rintro ⟨⟩ l
    simp only [Prog.act, Prog.run, and_true]
    unfold countSeconds
    dsimp only
    split
    · rfl
    · rfl
  · refine Alike.bind (fun s l => ⟨rfl, rfl⟩) fun lists => ?_
    refine Alike.bind (alike_cleanupLoop _ _) fun _ => ?_
    refine Alike.bind (alike_flagsLoop _ _) fun _ => ?_
    exact fun s l => ⟨rfl, rfl⟩
  · exact fun s l => ⟨rfl, rfl⟩

lemma alike_firstPacket : Alike (Prog.atomic firstPacket) (Prog.atomic firstPacket) := by
  rintro ⟨⟩ l
  simp only [Prog.atomic, Prog.run]
  unfold firstPacket initData
  dsimp only [State.log]
  split
  · exact ⟨rfl, rfl⟩
  · exact ⟨rfl, rfl⟩

lemma alike_sameSecond : Alike (Prog.act sameSecond) (Prog.act sameSecond) := by
  rintro ⟨⟩ l
  simp only [Prog.act, Prog.run, and_true]
  unfold sameSecond
  dsimp only
  split_ifs
  · rfl
  · rfl
  · rfl

/-! ## The same packet in two chunks -/

/-- `q` is the packet `p`, possibly followed by other bytes. -/
structure SamePacket (p q : Packet) : Prop where
  bytes : ∀ o < p.caplen.toNat, q.bytes o = p.bytes o
  tvSec : q.tvSec = p.tvSec
  tvUsec : q.tvUsec = p.tvUsec
  caplen : q.caplen = p.caplen
  len : q.len = p.len

lemma SamePacket.ts {p q : Packet} (h : SamePacket p q) : q.ts = p.ts := by
  rw [Packet.ts, Packet.ts, h.tvSec, h.tvUsec]

lemma SamePacket.sec {p q : Packet} (h : SamePacket p q) : q.sec = p.sec := by
  rw [Packet.sec, Packet.sec, h.ts]

/-- A parser that reads captured bytes only gets the same out of both. -/
lemma SamePacket.parse_eq {p q : Packet} (h : SamePacket p q) {flow : IPFlow}
    (hreads : Within p.bytes p.caplen.toNat (readPacket p.caplen p.len flow)) :
    parse q flow = parse p flow := by
  rw [← run_readPacket, ← run_readPacket, h.caplen, h.len]
  exact hreads.run_eq h.bytes

lemma alike_stampClock {p q : Packet} (h : SamePacket p q) :
    Alike (Prog.act (stampClock p)) (Prog.act (stampClock q)) := by
  intro s l
  simp only [Prog.act, Prog.run, and_true, stampClock, State.log, State.memory, h.ts, h.sec]

lemma alike_parseInto {p q : Packet} (h : ∀ flow, parse q flow = parse p flow) (i : SessionId) :
    Alike (Prog.atomic (parseInto p i)) (Prog.atomic (parseInto q i)) := by
  intro s l
  simp only [Prog.atomic, Prog.run]
  unfold parseInto
  simp only [h]
  cases (parse p (s.ips i).incoming).verdict with
  | ignored => exact ⟨rfl, rfl⟩
  | malformed => exact ⟨rfl, rfl⟩
  | accepted => exact ⟨rfl, rfl⟩

lemma alike_parsePacket {p q : Packet} (h : ∀ flow, parse q flow = parse p flow) :
    Alike (parsePacket p) (parsePacket q) := by
  refine Alike.bind alike_acquireSession fun session => ?_
  cases session with
  | none => exact Alike.ret ()
  | some i =>
      exact Alike.bind (alike_parseInto h i) fun _ => Alike.ite (alike_insertFlow i) (Alike.ret ())

lemma alike_processPacket {p q : Packet} (h : SamePacket p q)
    (hparse : ∀ flow, parse q flow = parse p flow) :
    Alike (processPacket p) (processPacket q) := by
  have hrest : Alike (if 14 ≤ p.caplen then parsePacket p else .ret ())
      (if 14 ≤ q.caplen then parsePacket q else .ret ()) := by
    rw [h.caplen]
    exact Alike.ite (alike_parsePacket hparse) (Alike.ret ())
  refine Alike.bind (alike_stampClock h) fun _ => Alike.bind alike_firstPacket fun passed => ?_
  cases passed with
  | true => exact Alike.bind alike_perSecOps fun _ => hrest
  | false => exact Alike.bind alike_sameSecond fun _ => hrest

/-- The parser reads captured bytes only, and what else the chunk holds has no effect. -/
structure CapturedOnly (p : Packet) : Prop where
  reads : ∀ flow, Within p.bytes p.caplen.toNat (readPacket p.caplen p.len flow)
  effect : ∀ q, SamePacket p q → ∀ s,
    ((processPacket q).run s).1.memory = ((processPacket p).run s).1.memory

/-- **Only captured bytes count, if and only if every header the parser comes to is captured.** -/
theorem capturedOnly_iff_captured (p : Packet) (hcap : 14 ≤ p.caplen) :
    CapturedOnly p ↔ Captured p := by
  constructor
  · exact fun h => (readPacket_within_iff .zero hcap).mp (h.reads .zero)
  · intro h
    have hreads := fun flow => (readPacket_within_iff flow hcap).mpr h
    refine ⟨hreads, fun q hq s => ?_⟩
    exact (alike_processPacket hq fun flow => hq.parse_eq (hreads flow)).processed

/-- A UDP frame of which one byte of the UDP header was captured; `port` is what the chunk holds
where the destination port would be. -/
def runt (port : UInt8) : Packet where
  bytes := fun o =>
    if o = 12 then 0x08 else if o = 14 then 0x45 else if o = 17 then 28 else if o = 23 then 17
    else if o = 37 then port else 0
  tvSec := 10
  tvUsec := 0
  caplen := 35
  len := 35

/-- With the whole UDP header captured nothing else is looked at. -/
theorem capturedOnly_iff_captured_whole :
    let whole := { runt 7 with caplen := 42, len := 42 }
    14 ≤ whole.caplen ∧ CapturedOnly whole := by
  refine ⟨by decide, (capturedOnly_iff_captured _ (by decide)).mpr fun n hn => ?_⟩
  cases n with
  | zero => exact ⟨by decide, fun _ _ _ _ => by decide, by decide⟩
  | succ n => exact absurd (hn 0 (Nat.succ_pos n)) (by decide)

/-- What an earlier packet has left in the chunk decides which flow the packet belongs to. -/
theorem leftover_port_decides_flow :
    14 ≤ (runt 7).caplen ∧ SamePacket (runt 7) (runt 9) ∧ ¬ CapturedOnly (runt 7)
      ∧ ((processPacket (runt 9)).run initialState).1.memory
        ≠ ((processPacket (runt 7)).run initialState).1.memory := by
  have hsame : SamePacket (runt 7) (runt 9) := by
    refine ⟨fun o ho => ?_, rfl, rfl, rfl, rfl⟩
    have ho : o < 35 := ho
    simp only [runt, show o ≠ 37 by omega, if_false]
  have hdiffer : ((processPacket (runt 9)).run initialState).1.memory
      ≠ ((processPacket (runt 7)).run initialState).1.memory := by
    intro h
    have hport := congrArg (fun s : State => (s.ips 2499).incoming.destinationPort) h
    exact absurd hport (by decide +kernel)
  exact ⟨by decide, hsame, fun h => hdiffer (h.effect _ hsame initialState), hdiffer⟩

end Flow
