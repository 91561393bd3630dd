import XdpFlows.Flow.Completion
import XdpFlows.Flow.Aggregation
import XdpFlows.Flow.TextLine
import XdpFlows.Flow.FlowFile

/-!
# The flow files

`exportThread` with its files: at the end of an iteration of its loop it may close the file and open
another one (`observe`), and `printTupleFileText` appends a line for the flow it has popped.  The files
are opened with `"a"`, so what they hold already stays.

A run is watched together with a log that nobody in it reads: each exported record, with the file that was
open at that moment (`FileLogged`).

* `files_hold_the_exported`: read back line by line, each file holds the records of the log that were
  exported while it was open, in their order.
* `files_hold_the_segments`: after the shutdown they hold, all together, the segments of the packets that
  reached `insertFlow`: what goes in as frames comes out as text.
-/

namespace Flow

open SessionWindow Sections FormattedText

/-! ## Writing -/

/-- What `exportThread` keeps besides the store: its file, whether the end of an iteration of its loop
comes next, and the contents of all files. -/
structure Exporter where
  flowFile : FlowFile
  checking : Bool
  disk : String → List Char

/-- Before the loop, with the file of the time of day open. -/
def Exporter.start (file : String) (disk : String → List Char) : Exporter where
  flowFile := .start file
  checking := false
  disk := disk

/-- `export_data(current_session, &e)`. -/
def Exporter.exportData (e : Exporter) (session : IPSession) : Exporter :=
  { e with
    disk := Function.update e.disk e.flowFile.file
      (e.disk e.flowFile.file ++ printTupleFileText session) }

/-- The session `export_data` is called for in the next section. -/
def State.currentSession (s : State) : Option IPSession :=
  match s.exporter with
  | .popped _ n => (s.sessionAt n).map s.ips
  | _ => none

/-- The next section of `exportThread`, the end of an iteration being one.  The final loop does not
look at the time. -/
def exportTurn (tz : Int32) (s : State) (e : Exporter) : State × Exporter :=
  if e.checking then
    (s, { e with flowFile := observe tz e.flowFile s.lastPacketTimestamp, checking := false })
  else
    let e := match s.currentSession with
      | some session => e.exportData session
      | none => e
    let s := exportStep s
    (s, { e with checking := s.exporter = .loop })

/-- The runs of the monitor with its files, from `e₀` on. -/
inductive FileRun (tz : Int32) (e₀ : Exporter) : Config → Exporter → Prop where
  | start : FileRun tz e₀ ⟨[], initialState, .idle⟩ e₀
  | process {x y : Config} {e : Exporter} (h : FileRun tz e₀ x e) (hturn : ProcessTurn x y) :
      FileRun tz e₀ y e
  | export {x : Config} {e : Exporter} (h : FileRun tz e₀ x e) :
      FileRun tz e₀ { x with state := (exportTurn tz x.state e).1 } (exportTurn tz x.state e).2

/-- What the next section of `exportThread` exports, with the file that is open. -/
def exportNote (s : State) (e : Exporter) : List (String × FlowRecord) :=
  if e.checking then []
  else ((exportStep s).exported.drop s.exported.length).map fun r => (e.flowFile.file, r)

/-- The runs with the log of what has been exported. -/
inductive FileLogged (tz : Int32) (e₀ : Exporter) :
    Config → Exporter → List (String × FlowRecord) → Prop where
  | start : FileLogged tz e₀ ⟨[], initialState, .idle⟩ e₀ []
  | process {x y : Config} {e : Exporter} {log : List (String × FlowRecord)}
      (h : FileLogged tz e₀ x e log) (hturn : ProcessTurn x y) : FileLogged tz e₀ y e log
  | export {x : Config} {e : Exporter} {log : List (String × FlowRecord)}
      (h : FileLogged tz e₀ x e log) :
      FileLogged tz e₀ { x with state := (exportTurn tz x.state e).1 } (exportTurn tz x.state e).2
        (log ++ exportNote x.state e)

section Files

variable {tz : Int32} {e₀ e : Exporter} {x : Config} {ps : List Packet} {s : State} {f : Phase}
  {file : String} {disk : String → List Char} {log : List (String × FlowRecord)}

lemma FileRun.run (h : FileRun tz e₀ x e) : Run x.packets x.state x.phase := by
  induction h with
  | start => exact .start
  | process _ hturn ih => exact ih.turn hturn.turn
  | @«export» x e _ ih =>
      unfold exportTurn
      split_ifs
      · exact ih
      · exact ih.export rfl

/-- The log is only watched: forgetting it leaves a run. -/
lemma FileLogged.run (h : FileLogged tz e₀ x e log) : FileRun tz e₀ x e := by
  induction h with
  | start => exact .start
  | process _ hturn ih => exact ih.process hturn
  | «export» _ ih => exact ih.export

/-- Every run can be watched. -/
lemma FileRun.logged (h : FileRun tz e₀ x e) : ∃ log, FileLogged tz e₀ x e log := by
  induction h with
  | start => exact ⟨[], .start⟩
  | process _ hturn ih =>
      obtain ⟨log, ih⟩ := ih
      exact ⟨log, ih.process hturn⟩
  | «export» _ ih =>
      obtain ⟨log, ih⟩ := ih
      exact ⟨_, ih.export⟩

/-! ## Lines -/

/-- A session with what a record tells of it. -/
def FlowRecord.session (r : FlowRecord) : IPSession :=
  ⟨none, 0, r.last, r.first, none, r.flow⟩

/-- What a line tells of a record. -/
def FlowRecord.tupleLine (r : FlowRecord) : TupleLine :=
  r.session.tupleLine

/-- The line shows the record and nothing else of a session. -/
lemma printTupleFileText_record (session : IPSession) :
    printTupleFileText session.record.session = printTupleFileText session := rfl

lemma plain_isNewline : Plain isNewline := by
  intro c hc
  rw [isNewline, decide_eq_false_iff_not]
  rintro rfl
  simp at hc

/-- `printTupleFileText` writes one line. -/
lemma line_printTupleFileText (session : IPSession) : Line (printTupleFileText session) := by
  have hformat : tupleFormat = tupleFormat.dropLast ++ [.lit '\n'] := rfl
  have hlits : ∀ conv ∈ tupleFormat.dropLast, conv ≠ .lit '\n' := by decide
  have hword : Word isNewline (fprintf tupleFormat.dropLast (tupleArgs session)) := by
    refine word_fprintf plain_isNewline (fun c hc => ?_) _
    rw [isNewline, decide_eq_false_iff_not]
    rintro rfl
    exact hlits _ hc rfl
  have hargs : tupleFormat.dropLast.countP Conv.takes ≤ (tupleArgs session).length := by
    have hcount : tupleFormat.dropLast.countP Conv.takes = 30 := by decide
    exact hcount.le
  refine ⟨_, hword, ?_⟩
  rw [printTupleFileText, ← fprintf_concat_lit '\n' hargs, ← hformat]

/-! ## What the files hold -/

/-- The log is what was exported, and what was appended to the files `disk`. -/
structure Written (disk : String → List Char) (log : List (String × FlowRecord)) (s : State)
    (e : Exporter) : Prop where
  exported : s.exported = log.map Prod.snd
  disk : ∀ name, e.disk name = disk name
    ++ ((log.filter fun w => w.1 = name).map fun w => printTupleFileText w.2.session).flatten

lemma Owns.exported_currentSession {g : Layout} (h : Owns g s) :
    (exportStep s).exported = s.exported ++ s.currentSession.toList.map IPSession.record := by
  rw [h.exportStep_exported]
  congr 1
  cases hpc : s.exporter with
  | popped drain n =>
      have hn : n ∈ s.leaving := by simp [State.leaving, hpc, ExportPc.poppedNode]
      obtain ⟨-, i, hdata, -⟩ := h.waiting_session hn
      simp [State.currentSession, hpc, ExportPc.poppedNode, recordAt_eq hdata, sessionAt_eq hdata,
        State.record]
  | _ => simp [State.currentSession, hpc, ExportPc.poppedNode]

/-- **One line for each record**, in the file that is open. -/
lemma Written.exportData (h : Written disk log s e) {s' : State} {session : IPSession}
    (hs : s'.exported = s.exported ++ [session.record]) :
    Written disk (log ++ [(e.flowFile.file, session.record)]) s' (e.exportData session) := by
  refine ⟨by rw [hs, h.exported]; simp, fun name => ?_⟩
  by_cases hname : e.flowFile.file = name
  · subst hname
    simp [Exporter.exportData, h.disk, printTupleFileText_record]
  · simp [Exporter.exportData, Function.update_of_ne (Ne.symm hname), h.disk, hname]

/-- What a section exports and what it appends. -/
lemma Written.exportTurn (h : Written disk log s e) {g : Layout} (hg : Owns g s) :
    Written disk (log ++ exportNote s e) (exportTurn tz s e).1 (exportTurn tz s e).2 := by
  unfold Flow.exportTurn exportNote
  split_ifs with hchecking
  · rw [List.append_nil]
    exact ⟨h.exported, h.disk⟩
  · have hexported := hg.exported_currentSession
    rw [hexported, List.drop_left]
    cases hcur : s.currentSession with
    | none =>
        rw [hcur] at hexported
        simp only [Option.toList_none, List.map_nil, List.append_nil] at hexported ⊢
        exact ⟨hexported.trans h.exported, h.disk⟩
    | some session =>
        rw [hcur] at hexported
        obtain ⟨hrecords, hdisk⟩ := h.exportData hexported
        exact ⟨hrecords, hdisk⟩

lemma FileLogged.written (h : FileLogged tz (.start file disk) x e log) :
    Written disk log x.state e := by
  induction h with
  | start => exact ⟨rfl, fun name => (List.append_nil _).symm⟩
  | process h hturn ih => exact ⟨(h.run.run.exported hturn).trans ih.exported, ih.disk⟩
  | «export» h ih =>
      obtain ⟨⟨g, a, pend, hrep⟩, -⟩ := h.run.run.sound
      exact ih.exportTurn hrep.owns

/-- The log is read back from a file. -/
lemma Written.lines (h : Written disk log s e) (name : String) :
    ∃ text, e.disk name = disk name ++ text ∧ (lines text).map decode
      = (log.filter fun w => w.1 = name).map fun w => w.2.tupleLine := by
  refine ⟨_, h.disk name, ?_⟩
  rw [lines_flatten, List.map_map]
  · exact List.map_congr_left fun w _ => decode_printTupleFileText w.2.session
  · intro l hl
    obtain ⟨w, -, rfl⟩ := List.mem_map.mp hl
    exact line_printTupleFileText w.2.session

/-- **The files hold what was exported**: the text appended to a file reads back as the records that were
exported while this file was open, one line for each, in their order. -/
theorem files_hold_the_exported (h : FileLogged tz (.start file disk) x e log) :
    log.map Prod.snd = x.state.exported
      ∧ ∀ name, ∃ text, e.disk name = disk name ++ text ∧ (lines text).map decode
        = (log.filter fun w => w.1 = name).map fun w => w.2.tupleLine :=
  ⟨h.written.exported.symm, fun name => h.written.lines name⟩

/-! ### Runs without interference -/

/-- The process thread, or the shutdown, goes on alone. -/
lemma FileLogged.finish {prog : Prog State Unit} (h : FileLogged tz e₀ ⟨ps, s, .busy prog⟩ e log) :
    FileLogged tz e₀ ⟨ps, (prog.run s).1, .idle⟩ e log := by
  induction prog generalizing s with
  | ret a => exact h.process .back
  | sec u k ih => exact ih s (h.process .busy)

lemma FileLogged.finishClosing {prog : Prog State Unit}
    (h : FileLogged tz e₀ ⟨ps, s, .closing prog⟩ e log) :
    FileLogged tz e₀ ⟨ps, (prog.run s).1, .closed⟩ e log := by
  induction prog generalizing s with
  | ret a => exact h.process .close
  | sec u k ih => exact ih s (h.process .closing)

lemma fileLogged_monitor (tz : Int32) (e₀ : Exporter) (ps : List Packet) :
    FileLogged tz e₀ ⟨ps, monitor ps, .idle⟩ e₀ [] := by
  induction ps using List.reverseRecOn with
  | nil => exact .start
  | append_singleton ps p ih =>
      rw [monitor, List.foldl_append]
      exact (ih.process (.packet p)).finish

/-- `exportThread` goes on alone. -/
def exportTurns (tz : Int32) (m : ℕ) (s : State) (e : Exporter) : State × Exporter :=
  (fun w => exportTurn tz w.1 w.2)^[m] (s, e)

/-- What it exports. -/
def exportNotes (tz : Int32) (m : ℕ) (s : State) (e : Exporter) : List (String × FlowRecord) :=
  (List.range m).flatMap fun j => exportNote (exportTurns tz j s e).1 (exportTurns tz j s e).2

lemma FileLogged.exports (h : FileLogged tz e₀ ⟨ps, s, f⟩ e log) (m : ℕ) :
    FileLogged tz e₀ ⟨ps, (exportTurns tz m s e).1, f⟩ (exportTurns tz m s e).2
      (log ++ exportNotes tz m s e) := by
  induction m with
  | zero =>
      rw [exportNotes, List.range_zero, List.flatMap_nil, List.append_nil]
      exact h
  | succ m ih =>
      rw [exportTurns, Function.iterate_succ_apply', exportNotes, List.range_succ, List.flatMap_append,
        List.flatMap_singleton, ← List.append_assoc]
      exact ih.export

/-- Two flows have expired; the first one is written, and then the file of the packets is opened. -/
theorem files_hold_the_exported_two :
    ∃ x e log, FileLogged 3600 (.start "first" fun _ => []) x e log
      ∧ log.map Prod.fst = ["first", flowFileName 0]
      ∧ log.map Prod.snd = x.state.exported
      ∧ ∀ name, ∃ text, e.disk name = [] ++ text ∧ (lines text).map decode
        = (log.filter fun l => l.1 = name).map fun l => l.2.tupleLine := by
  have hrun := (fileLogged_monitor 3600 (.start "first" fun _ => [])
    [datagram 1 5 0, datagram 2 5 0, datagram 3 200 0]).exports 9
  exact ⟨_, _, _, hrun, by decide +kernel, files_hold_the_exported hrun⟩

/-! ## From frames to text -/

/-- All files together hold a line for each exported record, and each of them some of the records in
their order. -/
lemma FileRun.grouped (h : FileRun tz (.start file disk) x e) :
    ∃ (text : String → List Char) (names : List String), names.Nodup
      ∧ (∀ name, e.disk name = disk name ++ text name)
      ∧ (∀ name, name ∉ names → lines (text name) = [])
      ∧ (names.flatMap fun name => (lines (text name)).map decode).Perm
        (x.state.exported.map FlowRecord.tupleLine)
      ∧ ∀ name, ((lines (text name)).map decode).Sublist (x.state.exported.map FlowRecord.tupleLine) := by
  obtain ⟨log, hlogged⟩ := h.logged
  obtain ⟨hexported, -⟩ := hlogged.written
  choose text hdisk hlines using hlogged.written.lines
  have hrecords : log.map (fun w => w.2.tupleLine) = x.state.exported.map FlowRecord.tupleLine := by
    rw [hexported, List.map_map]
    rfl
  rw [← hrecords]
  refine ⟨text, (log.map Prod.fst).dedup, List.nodup_dedup _, hdisk, fun name hname => ?_, ?_,
    fun name => ?_⟩
  · have hnil : (log.filter fun w => w.1 = name) = [] := by
      refine List.filter_eq_nil_iff.mpr fun w hw heq => hname ?_
      rw [List.mem_dedup, ← of_decide_eq_true heq]
      exact List.mem_map_of_mem hw
    have hmap := hlines name
    rw [hnil] at hmap
    exact List.map_eq_nil_iff.mp hmap
  · have hgroups := ListGroups.perm_flatMap_filter (fun w : String × FlowRecord => w.1) log
      (List.nodup_dedup (log.map Prod.fst)) fun w hw =>
        List.mem_dedup.mpr (List.mem_map_of_mem hw)
    have hall := hgroups.map fun w => w.2.tupleLine
    rw [List.map_flatMap] at hall
    simp only [hlines]
    exact hall
  · rw [hlines]
    exact (List.filter_sublist (p := fun w : String × FlowRecord => w.1 = name)).map _

/-- When the export thread has ended, what it has exported are the segments of the packets. -/
lemma Run.exported_reference (h : Run ps s .closed) (hfin : s.exporter = .finished)
    (hsorted : (ps.map Packet.ts).Pairwise (· ≤ ·)) (hsec : ∀ p ∈ ps, 1 ≤ p.sec)
    (hearly : ∀ p ∈ ps, p.ts.toNat < 2 ^ 63) : s.exported.Perm (reference s.reached) := by
  have hshut : Shut (Clock.after ps) s := h.inPhase
  obtain ⟨g, a, hrep, -, hlive, hgone⟩ := hshut.ended (Clock.early_after hearly) hfin
  have hinit : s.inits ≤ 1 := h.inits_le_one hsec (stepsForward_of_sorted hsorted)
  obtain ⟨hintact, -, -⟩ := hrep.shows.intact hinit
  have hsteady : Rules.Steady a := by
    rw [Rules.Steady, hrep.shows.times]
    exact h.steady hsorted
  have hcut := (hrep.shows.reach.segments decides_near rules_waits hsteady hintact).cut
  have hlive' : a.live.map recordOf = [] := by
    rw [← hrep.shows.live, hlive]
    rfl
  have hchain : s.exported = a.chain.map recordOf := by
    rw [Flows.chain, List.map_eq_nil_iff.mp hlive', List.reverse_nil, List.append_nil,
      ← hrep.shows.out, hgone]
    exact (List.append_nil _).symm
  rw [hchain, hrep.shows.arrivals, List.append_nil]
  exact reference_perm (hrep.shows.reach.packets_perm hintact) hcut

/-- The exported records are in the order of their last packets. -/
lemma Run.exported_sorted (h : Run ps s f) (hsorted : (ps.map Packet.ts).Pairwise (· ≤ ·)) :
    s.exported.Pairwise fun r r' => r.last ≤ r'.last := by
  obtain ⟨⟨g, a, pend, hrep⟩, -⟩ := h.sound
  have hsteady : Rules.Steady a := by
    rw [Rules.Steady, hrep.shows.times]
    exact h.steady hsorted
  have hout : (a.out.map rules.last).Pairwise (· ≤ ·) :=
    List.pairwise_map.mpr (List.pairwise_append.mp (hrep.shows.reach.inOrder hsteady).sorted).1
  have hrecords : (a.out.map recordOf).Pairwise fun r r' => r.last ≤ r'.last := by
    rw [List.pairwise_map] at hout ⊢
    exact hout
  rw [← hrep.shows.out] at hrecords
  exact (List.pairwise_append.mp hrecords).1

/-- **What goes in as frames comes out as text.**  With packets in the order of their times, none in second
`0` (where `initData` would be called again) or at `2 ^ 63` and later, when the export thread has ended
after the shutdown, the lines appended to the files are, all together, those of the segments of the
packets that reached `insertFlow`; and those of one file are in the order of the last packets. -/
theorem files_hold_the_segments (h : FileRun tz (.start file disk) x e) (hclosed : x.phase = .closed)
    (hfin : x.state.exporter = .finished) (hsorted : (x.packets.map Packet.ts).Pairwise (· ≤ ·))
    (hsec : ∀ p ∈ x.packets, 1 ≤ p.sec) (hearly : ∀ p ∈ x.packets, p.ts.toNat < 2 ^ 63) :
    ∃ (text : String → List Char) (names : List String), names.Nodup
      ∧ (∀ name, e.disk name = disk name ++ text name)
      ∧ (∀ name, name ∉ names → lines (text name) = [])
      ∧ (names.flatMap fun name => (lines (text name)).map decode).Perm
        ((reference x.state.reached).map FlowRecord.tupleLine)
      ∧ ∀ name, ((lines (text name)).map decode).Pairwise fun l l' => l.last ≤ l'.last := by
  obtain ⟨text, names, hnodup, hdisk, hnone, hperm, hsub⟩ := h.grouped
  have hrun := h.run
  rw [hclosed] at hrun
  have hall := hrun.exported_reference hfin hsorted hsec hearly
  refine ⟨text, names, hnodup, hdisk, hnone, hperm.trans (hall.map _), fun name => ?_⟩
  refine List.Pairwise.sublist (hsub name) (List.pairwise_map.mpr ?_)
  exact hrun.exported_sorted hsorted

/-- Two flows, the first of them cut by a gap, in what was written when the monitor has been shut down. -/
theorem files_hold_the_segments_two : ∃ x e, FileRun 3600 (.start "first" fun _ => []) x e
    ∧ (reference x.state.reached).length = 3
    ∧ ∃ (text : String → List Char) (names : List String), names.Nodup
      ∧ (∀ name, e.disk name = [] ++ text name)
      ∧ (names.flatMap fun name => (lines (text name)).map decode).Perm
        ((reference x.state.reached).map FlowRecord.tupleLine) := by
  have hidle := (fileLogged_monitor 3600 (.start "first" fun _ => [])
    [datagram 1 5 0, datagram 2 5 0, datagram 1 200 0]).exports 9
  have hrun := ((hidle.process .shutdown).finishClosing.exports 9).run
  obtain ⟨text, names, hnodup, hdisk, -, hperm, -⟩ := files_hold_the_segments hrun rfl
    (by decide +kernel) (by decide +kernel) (by decide +kernel) (by decide +kernel)
  exact ⟨_, _, hrun, by decide +kernel, text, names, hnodup, hdisk, hperm⟩

end Files

end Flow
