import XdpFlows.Flow.Accounts
import XdpFlows.Flow.Rollback

/-!
# Flows are the segments of their key

With packets in the order of their times, the flows are what one would compute offline from the
packets that reached `insertFlow`: those of one key, cut wherever two neighbours are further apart
than the timeout (`flows_are_segments`).  And they leave in the order of their last packets, the final
flush included (`exported_in_time_order`).
-/

namespace Flow

open SessionWindow Sections

/-! ## The reference -/

/-- Two packets not further apart than the timeout. -/
def near (p q : Packet) : Bool :=
  q.ts.toNat ≤ p.ts.toNat + expirationFlowTime.toNat

/-- The packets of every key, cut at the gaps. -/
def segments (ps : List Packet) : List (List Packet) :=
  (ps.map Packet.key).dedup.flatMap fun k => (ps.filter fun p => p.key = k).splitBy near

/-- What the record of a segment is to be: the key and the addresses of its first packet, the number
of packets and of bytes in the width of their counters, the times of its first and last packet. -/
def segmentRecord : List Packet → Option FlowRecord
  | [] => none
  | p :: later => some {
      flow := {
        sourceIp := p.key.sourceIp
        destinationIp := p.key.destinationIp
        sourceMac := macAt p.bytes 6
        destinationMac := macAt p.bytes 0
        sourcePort := p.key.sourcePort
        destinationPort := p.key.destinationPort
        vlanTag := p.key.vlanTag
        transportProtocol := p.key.transportProtocol
        npack := UInt32.ofNat (p :: later).length
        nbytes := UInt64.ofNat ((p :: later).map fun q => q.len.toNat).sum }
      first := p.ts
      last := ((p :: later).getLast (List.cons_ne_nil p later)).ts }

/-- One record for each segment. -/
def reference (ps : List Packet) : List FlowRecord :=
  (segments ps).filterMap segmentRecord

lemma segmentRecord_packets (S : Session Packet) :
    segmentRecord S.packets = some (recordOf S) := by
  obtain ⟨-, -, -, hdst, hsrc⟩ := counted_parse S.first
  have hlast : (S.first :: S.later).getLast (List.cons_ne_nil _ _) = S.latest := by
    rcases List.eq_nil_or_concat S.later with hnil | ⟨l, q, hlater⟩
    · simp [Session.latest, hnil]
    · simp [Session.latest, hlater]
  have hflow : S.first.flow = { S.first.flow with
      sourceMac := macAt S.first.bytes 6, destinationMac := macAt S.first.bytes 0 } := by
    rw [← hdst, ← hsrc]
    rfl
  simp only [Session.packets, segmentRecord, recordOf, hlast]
  rw [hflow]
  rfl

/-- `near` is the expiration test for packets in order. -/
lemma decides_near : rules.Decides near := by
  intro p q hle
  have hstale : Stale p.ts q.ts ↔ p.ts.toNat + expirationFlowTime.toNat < q.ts.toNat :=
    stale_iff hle
  rw [near, decide_eq_true_eq]
  show _ ↔ ¬ Stale p.ts q.ts
  rw [hstale, not_lt]

/-! ## The flows -/

section Segments

variable {ps : List Packet} {s : State} {f : Phase}

/-- In a run over packets in order the clock does not step back, not even for the final flush. -/
lemma Run.steady (h : Run ps s f) (hsorted : (ps.map Packet.ts).Pairwise (· ≤ ·)) :
    s.times.Pairwise (· ≤ ·) := by
  obtain ⟨-, hbelow⟩ := h.sound
  have hpre : s.times <+: ps.map Packet.ts ++ [infinity] := by
    rw [← Clock.after_times]
    exact hbelow.times
  refine List.Pairwise.sublist hpre.sublist (List.pairwise_append.mpr
    ⟨hsorted, List.pairwise_singleton _ _, fun t _ u hu => ?_⟩)
  rw [List.mem_singleton.mp hu, UInt64.le_iff_toNat_le]
  have hinf : infinity.toNat = 2 ^ 64 - 1 := rfl
  have hlt := t.toNat_lt
  omega

/-- The sessions of the abstract store are the segments of the packets. -/
lemma reference_perm {a : Flows Packet UInt64} (hperm : (a.chain.flatMap Session.packets).Perm
    a.arrivals) (hcut : ∀ k, (rules.ofKey k a.chain).map Session.packets
      = (a.arrivals.filter fun p => rules.key p = k).splitBy near) :
    (a.chain.map recordOf).Perm (reference a.arrivals) := by
  have hkeys : ∀ S ∈ a.chain, rules.key S.first ∈ (a.arrivals.map Packet.key).dedup := by
    intro S hS
    rw [List.mem_dedup]
    refine List.mem_map_of_mem (hperm.mem_iff.mp ?_)
    exact List.mem_flatMap.mpr ⟨S, hS, List.mem_cons_self ..⟩
  have hgroups := ListGroups.perm_flatMap_filter (fun S : Session Packet => rules.key S.first)
    a.chain (List.nodup_dedup _) hkeys
  have hrecords : ∀ l : List (Session Packet),
      (l.map Session.packets).filterMap segmentRecord = l.map recordOf := by
    intro l
    rw [List.filterMap_map]
    refine (List.filterMap_congr fun S _ => ?_).trans (congrFun (List.filterMap_eq_map ..) _)
    exact segmentRecord_packets S
  refine (hgroups.map recordOf).symm.trans (List.Perm.of_eq ?_)
  rw [reference, segments, List.map_flatMap, List.filterMap_flatMap]
  congr 1
  funext k
  rw [← hrecords]
  exact congrArg (List.filterMap segmentRecord) (hcut k)

/-- **Flow aggregation equals the reference segmentation**: the records exported, on their way out and
in the table are those of the segments of the packets that reached `insertFlow`. -/
theorem flows_are_segments (h : Run ps s f) (hf : f = .idle ∨ f = .closed)
    (hsorted : (ps.map Packet.ts).Pairwise (· ≤ ·)) (hsec : ∀ p ∈ ps, 1 ≤ p.sec) :
    s.records.Perm (reference s.reached) := by
  have hinit : s.inits ≤ 1 := h.inits_le_one hsec (stepsForward_of_sorted hsorted)
  obtain ⟨g, a, hrep, -, -⟩ := h.settled hf
  obtain ⟨hintact, -, -⟩ := hrep.shows.intact hinit
  have hreached : s.reached = a.arrivals := by
    rw [hrep.shows.arrivals, List.append_nil]
  have hsteady : Rules.Steady a := by
    rw [Rules.Steady, hrep.shows.times]
    exact h.steady hsorted
  have hcut := (hrep.shows.reach.segments decides_near rules_waits hsteady hintact).cut
  rw [hreached]
  exact hrep.records_perm.trans
    (reference_perm (hrep.shows.reach.packets_perm hintact) hcut)

/-- Two flows, one of them cut by a gap of 91 seconds. -/
theorem flows_are_segments_cut :
    let ps := [datagram 1 5 0, datagram 2 5 0, datagram 1 6 0, datagram 1 97 1]
    (monitor ps).reached.length = 4 ∧ (reference (monitor ps).reached).length = 3
      ∧ (monitor ps).records.Perm (reference (monitor ps).reached) :=
  ⟨by decide +kernel, by decide +kernel,
    flows_are_segments (run_monitor _) (.inl rfl) (by decide +kernel) (by decide +kernel)⟩

/-- **Flows leave in time order.** -/
theorem exported_in_time_order (h : Run ps s f)
    (hsorted : (ps.map Packet.ts).Pairwise (· ≤ ·)) :
    (s.exported.map FlowRecord.last).Pairwise (· ≤ ·) := by
  obtain ⟨⟨g, a, pend, -, -, hs⟩, -⟩ := h.sound
  have hsteady : Rules.Steady a := by
    rw [Rules.Steady, hs.times]
    exact h.steady hsorted
  have hchain := (hs.reach.inOrder hsteady).sorted
  have hout : (a.out.map rules.last).Pairwise (· ≤ ·) :=
    List.pairwise_map.mpr (List.pairwise_append.mp hchain).1
  have hlast : (s.exported ++ g.gone.map fun w => s.record w.2).map FlowRecord.last
      = a.out.map rules.last := by
    rw [hs.out, List.map_map]
    rfl
  rw [← hlast, List.map_append] at hout
  exact (List.pairwise_append.mp hout).1

/-- The shutdown after two flows, and the export thread up to the second record. -/
theorem exported_in_time_order_shutdown :
    let s := exportStep^[7] (capturaSenial.run (monitor [datagram 1 5 0, datagram 2 6 0])).1
    s.exported.length = 2 ∧ (s.exported.map FlowRecord.last).Pairwise (· ≤ ·) :=
  ⟨by decide +kernel, exported_in_time_order ((run_shutdown _).exports 7) (by decide +kernel)⟩

end Segments

end Flow
