import XdpFlows.Flow.Accounting
import XdpFlows.Flow.Files
import XdpFlows.Umem.Capture

/-!
# The whole monitor

`processThread` is `rx_and_process(true, xdp_sock, 5, 1000, process_packet, NULL)`: the receive loop with
`process_packet` for its packet processor.  Here the parts run together, the kernel, the receive loop, the
process thread, the export thread with its files and the shutdown, in any interleaving.

Forgetting the others leaves a run of each part (`Run.capture`, `Run.files`), and the packets
`process_packet` gets are those of the UMEM (`Run.seen`).  So what the parts guarantee can be put together:
`wire_to_files` leads from the packets the kernel has delivered to the lines in the files.
-/

namespace Pipeline

open Sections FormattedText
open Umem (Capture CaptureStep CaptureRun Notice XdpDesc packetAt)
open Flow (Packet State Config Phase Exporter FileRun ProcessTurn)

/-- The argument `process_packet` gets for a descriptor, `h.len` and `h.caplen` being the length of the
packet and `h.ts` the time of `clock_gettime`. -/
def pktInfo (umem : ℕ → UInt8) (desc : XdpDesc) (tvSec tvNsec : UInt64) : Packet where
  bytes i := umem (desc.addr.toNat + i)
  tvSec := tvSec
  tvUsec := tvNsec / 1000
  caplen := desc.len
  len := desc.len

/-- The captured bytes of a packet. -/
def captured (p : Packet) : List UInt8 :=
  (List.range p.caplen.toNat).map p.bytes

@[simp] lemma captured_pktInfo (umem : ℕ → UInt8) (desc : XdpDesc) (tvSec tvNsec : UInt64) :
    captured (pktInfo umem desc tvSec tvNsec) = packetAt umem desc := rfl

/-- All threads and what they share. -/
structure Host where
  capture : Capture
  config : Config
  exporter : Exporter

/-- `ntimeouts` in `processThread`. -/
def ntimeouts : ℕ := 5

/-- The runs of the monitor.  `process_packet` is called in the middle of `handle_receive_packets`, which
goes on when it has returned; `capturaSenial` first waits for the receive loop to end. -/
inductive Run (tz : Int32) (e₀ : Exporter) : Host → Prop where
  | start {s : Umem.XskState} (umem : ℕ → UInt8) (h : Umem.xskConfigureSocket = some s) :
      Run tz e₀ ⟨.start s umem, ⟨[], Flow.initialState, .idle⟩, e₀⟩
  | quiet {c c' : Capture} {x : Config} {e : Exporter} (h : Run tz e₀ ⟨c, x, e⟩)
      (hstep : CaptureStep ntimeouts c .quiet c') : Run tz e₀ ⟨c', x, e⟩
  | packet {c c' : Capture} {ps : List Packet} {s : State} {e : Exporter} {desc : XdpDesc}
      (tvSec tvNsec : UInt64) (h : Run tz e₀ ⟨c, ⟨ps, s, .idle⟩, e⟩)
      (hstep : CaptureStep ntimeouts c (.packet desc) c') :
      Run tz e₀ ⟨c', ⟨ps ++ [pktInfo c.umem desc tvSec tvNsec], s,
        .busy (Flow.processPacket (pktInfo c.umem desc tvSec tvNsec))⟩, e⟩
  | busy {c : Capture} {ps : List Packet} {s : State} {e : Exporter} {u : State → State}
      {k : State → Prog State Unit} (h : Run tz e₀ ⟨c, ⟨ps, s, .busy (.sec u k)⟩, e⟩) :
      Run tz e₀ ⟨c, ⟨ps, u s, .busy (k s)⟩, e⟩
  | done {c c' : Capture} {ps : List Packet} {s : State} {e : Exporter}
      (h : Run tz e₀ ⟨c, ⟨ps, s, .busy (.ret ())⟩, e⟩) (hstep : CaptureStep ntimeouts c .done c') :
      Run tz e₀ ⟨c', ⟨ps, s, .idle⟩, e⟩
  | shutdown {c : Capture} {ps : List Packet} {s : State} {e : Exporter}
      (h : Run tz e₀ ⟨c, ⟨ps, s, .idle⟩, e⟩) (hcall : c.call = none)
      (hover : c.goesOn ntimeouts = false) :
      Run tz e₀ ⟨c, ⟨ps, s, .closing Flow.capturaSenial⟩, e⟩
  | closing {c : Capture} {ps : List Packet} {s : State} {e : Exporter} {u : State → State}
      {k : State → Prog State Unit} (h : Run tz e₀ ⟨c, ⟨ps, s, .closing (.sec u k)⟩, e⟩) :
      Run tz e₀ ⟨c, ⟨ps, u s, .closing (k s)⟩, e⟩
  | close {c : Capture} {ps : List Packet} {s : State} {e : Exporter}
      (h : Run tz e₀ ⟨c, ⟨ps, s, .closing (.ret ())⟩, e⟩) : Run tz e₀ ⟨c, ⟨ps, s, .closed⟩, e⟩
  | export {c : Capture} {x : Config} {e : Exporter} (h : Run tz e₀ ⟨c, x, e⟩) :
      Run tz e₀ ⟨c, { x with state := (Flow.exportTurn tz x.state e).1 },
        (Flow.exportTurn tz x.state e).2⟩

/-! ## The parts -/

section Parts

variable {tz : Int32} {e₀ : Exporter} {w : Host}

lemma Run.capture (h : Run tz e₀ w) : CaptureRun ntimeouts w.capture := by
  induction h with
  | start umem h => exact .start umem h
  | quiet _ hstep ih => exact ih.step hstep
  | packet _ _ _ hstep ih => exact ih.step hstep
  | busy _ ih => exact ih
  | done _ hstep ih => exact ih.step hstep
  | shutdown _ _ _ ih => exact ih
  | closing _ ih => exact ih
  | close _ ih => exact ih
  | «export» _ ih => exact ih

lemma Run.files (h : Run tz e₀ w) : FileRun tz e₀ w.config w.exporter := by
  induction h with
  | start _ _ => exact .start
  | quiet _ _ ih => exact ih
  | packet tvSec tvNsec _ _ ih => exact ih.process (.packet _)
  | busy _ ih => exact ih.process .busy
  | done _ _ ih => exact ih.process .back
  | shutdown _ _ _ ih => exact ih.process .shutdown
  | closing _ ih => exact ih.process .closing
  | close _ ih => exact ih.process .close
  | «export» _ ih => exact ih.export

/-- The packets a step calls the processor with. -/
def packets : Notice → List XdpDesc
  | .packet desc => [desc]
  | _ => []

lemma packets_ofHandover (desc : Option XdpDesc) : packets (.ofHandover desc) = desc.toList := by
  cases desc with
  | none => rfl
  | some desc => rfl

lemma seen_step {ntimeouts : ℕ} {c c' : Capture} {n : Notice} (h : CaptureStep ntimeouts c n c') :
    c'.seen = c.seen ++ (packets n).map (packetAt c.umem) := by
  cases h with
  | sec hcall hreading => rw [packets_ofHandover]
  | _ => exact (List.append_nil _).symm

/-- `process_packet` is called with what the receive loop finds in the UMEM. -/
lemma Run.seen (h : Run tz e₀ w) : w.capture.seen = w.config.packets.map captured := by
  induction h with
  | start _ _ => rfl
  | quiet _ hstep ih => exact (seen_step hstep).trans ((List.append_nil _).trans ih)
  | @packet c c' ps s e desc tvSec tvNsec _ hstep ih =>
      have hseen := seen_step hstep
      simp only at ih hseen ⊢
      rw [hseen, ih, List.map_append]
      rfl
  | busy _ ih => exact ih
  | done _ hstep ih => exact (seen_step hstep).trans ((List.append_nil _).trans ih)
  | shutdown _ _ _ ih => exact ih
  | closing _ ih => exact ih
  | close _ ih => exact ih
  | «export» _ ih => exact ih

/-- While `process_packet` is at work, the packet it is at work on lies in the UMEM as it was called with
it. -/
lemma Run.reading (h : Run tz e₀ w) {desc : XdpDesc} (hreading : w.capture.reading = some desc) :
    (w.config.packets.map captured).getLast? = some (packetAt w.capture.umem desc) := by
  rw [← h.seen]
  exact (h.capture.intact.reading desc hreading).2.2

end Parts

/-! ## From the wire to the files -/

section Wire

variable {tz : Int32} {w : Host} {file : String} {disk : String → List Char}

/-- **From the wire to the files.**  At every moment of every run `process_packet` has been called with the
packets the kernel has delivered, byte for byte and in their order, but for those still in the rx ring.
And if the clock has not gone back and was between second 1 and 2^63 us, then after the shutdown, when the
export thread has ended, every one of these packets has come to its end, as the trace shows, and the lines
appended to the files are, all together, the segments of those that were handed to `insertFlow`. -/
theorem wire_to_files (h : Run tz (.start file disk) w) :
    w.capture.sent = w.config.packets.map captured
        ++ w.capture.socket.unread.map (packetAt w.capture.umem)
      ∧ (w.config.phase = .closed → w.config.state.exporter = .finished →
        (w.config.packets.map Packet.ts).Pairwise (· ≤ ·) → (∀ p ∈ w.config.packets, 1 ≤ p.sec) →
        (∀ p ∈ w.config.packets, p.ts.toNat < 2 ^ 63) →
        ∃ (fates : List (Packet × Flow.Fate)) (text : String → List Char) (names : List String),
          fates.map Prod.fst = w.config.packets ∧ (∀ v ∈ fates, Flow.Fits v.1 v.2)
          ∧ w.config.state.intake = (fates.flatMap fun v => v.2.events v.1)
          ∧ w.config.state.unprocessedPackets = (fates.map Prod.snd).count .dropped
          ∧ names.Nodup ∧ (∀ name, w.exporter.disk name = disk name ++ text name)
          ∧ (∀ name, name ∉ names → lines (text name) = [])
          ∧ (names.flatMap fun name => (lines (text name)).map Flow.decode).Perm
            ((Flow.reference ((fates.filter fun v => v.2 = .parsed .accepted).map Prod.fst)).map
              Flow.FlowRecord.tupleLine)) := by
  constructor
  · rw [← h.seen]
    exact h.capture.intact.sent
  · intro hclosed hfin hsorted hsec hearly
    have hrun := h.files.run
    rw [hclosed] at hrun
    obtain ⟨-, fates, hpackets, hfits, hrecorded⟩ : Flow.Accounted _ _ _ := hrun.accounting
    obtain ⟨text, names, hnodup, hdisk, hnone, hperm, -⟩ := h.files.grouped
    have hall := hrun.exported_reference hfin hsorted hsec hearly
    rw [hrecorded.reached] at hall
    exact ⟨fates, text, names, hpackets, hfits, hrecorded.intake.trans (List.append_nil _),
      hrecorded.unprocessedPackets, hnodup, hdisk, hnone, hperm.trans (hall.map _)⟩

/-! ### One packet, from the wire to a file -/

section OnePacket

variable {tz : Int32} {e₀ e : Exporter} {c : Capture} {x : Config} {ps : List Packet} {s : State}

lemma Run.quietly (h : Run tz e₀ ⟨c, x, e⟩) {c' : Capture} (hsteps : Umem.Quietly ntimeouts c c') :
    Run tz e₀ ⟨c', x, e⟩ := by
  induction hsteps with
  | refl => exact h
  | tail _ hstep ih => exact ih.quiet hstep

/-- `process_packet` goes on alone and returns. -/
lemma Run.process {prog : Prog State Unit} {desc : XdpDesc}
    (h : Run tz e₀ ⟨c, ⟨ps, s, .busy prog⟩, e⟩) (hreading : c.reading = some desc) :
    Run tz e₀ ⟨{ c with reading := none }, ⟨ps, (prog.run s).1, .idle⟩, e⟩ := by
  induction prog generalizing s with
  | ret a => exact h.done (.done hreading)
  | sec u k ih => exact ih s h.busy

/-- What is left of `handle_receive_packets` goes on alone. -/
lemma Run.receive (tvSec tvNsec : UInt64) {p : Prog Umem.XskState ℤ}
    (h : Run tz e₀ ⟨c, ⟨ps, s, .idle⟩, e⟩) (hcall : c.call = some p) (hreading : c.reading = none) :
    ∃ (c' : Capture) (ds : List XdpDesc),
      Run tz e₀ ⟨c', ⟨ps ++ ds.map (pktInfo c.umem · tvSec tvNsec),
        (ds.map (pktInfo c.umem · tvSec tvNsec)).foldl
          (fun s p => ((Flow.processPacket p).run s).1) s, .idle⟩, e⟩
      ∧ c'.socket = (p.run c.socket).1 ∧ c'.socket.handed = c.socket.handed ++ ds ∧ c'.sent = c.sent
      ∧ c'.call = none ∧ c'.timeouts = c.timeouts ∧ c'.stopCapture = c.stopCapture := by
  induction p generalizing c ps s with
  | ret a =>
      refine ⟨{ c with call := none }, [], ?_, rfl, (List.append_nil _).symm, rfl, rfl, rfl, rfl⟩
      rw [List.map_nil, List.append_nil]
      exact h.quiet (.back hcall hreading)
  | sec u k ih =>
      have hhanded := ((h.capture.intact.hands _ hcall).1 c.socket).handed
      have hstep : CaptureStep ntimeouts _ _ _ := .sec hcall hreading
      cases hone : Umem.handover c.socket (u c.socket) with
      | none =>
          rw [hone] at hstep hhanded
          obtain ⟨c', ds, hrun, hsocket, hds, hrest⟩ := ih c.socket (h.quiet hstep) rfl rfl
          refine ⟨c', ds, hrun, hsocket, hds.trans ?_, hrest⟩
          rw [hhanded]
          exact congrArg (· ++ ds) (List.append_nil _)
      | some desc =>
          rw [hone] at hstep hhanded
          have hnext := (h.packet tvSec tvNsec hstep).process rfl
          obtain ⟨c', ds, hrun, hsocket, hds, hrest⟩ := ih c.socket hnext rfl rfl
          refine ⟨c', desc :: ds, ?_, hsocket, hds.trans ?_, hrest⟩
          · simpa using hrun
          · rw [hhanded]
            simp

/-- No packet comes any more. -/
lemma Run.timeouts (h : Run tz e₀ ⟨c, x, e⟩) (hcall : c.call = none) (hzero : c.timeouts = 0)
    (hstop : c.stopCapture = true) {m : ℕ} (hm : m ≤ ntimeouts) :
    Run tz e₀ ⟨{ c with timeouts := m }, x, e⟩ := by
  induction m with
  | zero =>
      rw [← hzero]
      exact h
  | succ m ih =>
      have hgo : Capture.goesOn ntimeouts { c with timeouts := m } = true := by
        simp only [Capture.goesOn, hstop, Bool.and_true, decide_eq_true_eq]
        omega
      exact (ih (by omega)).quiet (.timeout (c := { c with timeouts := m }) hcall hgo)

lemma Run.finishClosing {prog : Prog State Unit} (h : Run tz e₀ ⟨c, ⟨ps, s, .closing prog⟩, e⟩) :
    Run tz e₀ ⟨c, ⟨ps, (prog.run s).1, .closed⟩, e⟩ := by
  induction prog generalizing s with
  | ret a => exact h.close
  | sec u k ih => exact ih s h.closing

lemma Run.exports {f : Phase} (h : Run tz e₀ ⟨c, ⟨ps, s, f⟩, e⟩) (m : ℕ) :
    Run tz e₀ ⟨c, ⟨ps, (Flow.exportTurns tz m s e).1, f⟩, (Flow.exportTurns tz m s e).2⟩ := by
  induction m with
  | zero => exact h
  | succ m ih =>
      rw [Flow.exportTurns, Function.iterate_succ_apply']
      exact ih.export

/-- The bytes of a datagram. -/
def frame : List UInt8 :=
  (List.range 60).map (Flow.datagram 1 5 0).bytes

lemma pktInfo_frame {umem : ℕ → UInt8} {desc : XdpDesc} (hlen : desc.len.toNat = frame.length)
    (hbytes : ∀ i, umem (desc.addr.toNat + i) = frame.getD i 0) :
    pktInfo umem desc 5 0 = Flow.datagram 1 5 0 := by
  have hlen' : desc.len = 60 := UInt32.toNat.inj hlen
  have hframe : ∀ i, frame.getD i 0 = (Flow.datagram 1 5 0).bytes i := by
    intro i
    rcases Nat.lt_or_ge i 60 with hi | hi
    · simp [frame, hi]
    · rw [List.getD_eq_default _ _ (by simpa [frame] using hi)]
      obtain ⟨j, rfl⟩ := Nat.exists_eq_add_of_le hi
      simp [Flow.datagram, Nat.add_comm 60 j]
  simp only [pktInfo, hlen', hbytes, hframe]
  rfl

end OnePacket

/-- One datagram, received by a socket that has just been configured and written to a file after the
shutdown. -/
theorem wire_to_files_one : ∃ w, Run 3600 (.start "first" fun _ => []) w
    ∧ w.capture.sent = [frame] ∧ w.config.phase = .closed
    ∧ ∃ (fates : List (Packet × Flow.Fate)) (text : String → List Char) (names : List String),
      fates.map Prod.fst = w.config.packets
      ∧ (∀ name, w.exporter.disk name = [] ++ text name)
      ∧ (names.flatMap fun name => (lines (text name)).map Flow.decode).Perm
        ((Flow.reference ((fates.filter fun v => v.2 = .parsed .accepted).map Prod.fst)).map
          Flow.FlowRecord.tupleLine) := by
  obtain ⟨c, desc, hsteps, hsent, -, hcall, hreading, htimeouts, hstop, hunread, hlen, hbytes⟩ :=
    @Umem.exists_delivered ntimeouts frame (by decide)
  have hstart : Run 3600 (.start "first" fun _ => []) _ :=
    .start (fun _ => 0) Umem.xskConfigureSocket_eq
  have hrun := hstart.quietly hsteps
  have hgo : c.goesOn ntimeouts := by
    rw [Capture.goesOn, htimeouts, hstop]
    rfl
  have hidle := hrun.capture.intact.watched
  rw [hcall] at hidle
  obtain ⟨c', ds, hrun', hsocket, hds, hsent', hcall', htimeouts', hstop'⟩ :=
    (hrun.quiet (.ready 0 hcall hgo)).receive 5 0 rfl hreading
  obtain rfl : ds = [desc] := by
    rw [hsocket] at hds
    exact List.append_cancel_left (hds.symm.trans (Umem.handed_alone hidle hunread).2)
  simp only [List.map_cons, List.map_nil, List.nil_append, pktInfo_frame hlen hbytes, List.foldl_cons,
    List.foldl_nil] at hrun'
  have hquiet := hrun'.timeouts hcall' htimeouts' (hstop'.trans hstop) le_rfl
  have hend := (hquiet.shutdown hcall' (by simp [Capture.goesOn])).finishClosing.exports 9
  obtain ⟨fates, text, names, hpackets, -, -, -, -, hdisk, -, hperm⟩ := (wire_to_files hend).2 rfl
    (by dsimp only; decide +kernel) (by dsimp only; decide +kernel) (by dsimp only; decide +kernel)
    (by dsimp only; decide +kernel)
  exact ⟨_, hend, hsent'.trans hsent, rfl, fates, text, names, hpackets, hdisk, hperm⟩

end Wire

end Pipeline
