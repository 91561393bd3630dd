import XdpFlows.Flow.Store

/-!
# The monitor

The two threads over the flow store and their runs: `process_packet` (`dp.c`) with the clock, the
once-a-second work and the parsing, the loop of `exportThread` (`export.c`) one section at a time,
and the shutdown of `capturaSenial`.

`Run` interleaves them.  The process thread handles one packet after the other; the export thread
may take a step at any time; after the last packet the process thread is joined and the shutdown
runs in its place.
-/

namespace Flow

open Sections

/-! ## The process thread -/

/-- The head of `process_packet`. -/
def stampClock (p : Packet) (s : State) : State :=
  { s with lastPacketTimestamp := p.ts, current := p.sec }.log (.received p)

/-- `initData`. -/
def initData (s : State) : State :=
  { s with
    previous2 := s.previous
    previous := s.current
    activeFlowList := []
    expiredFlowList := []
    flagsExpiredFlowList := []
    flowTable := fun _ => []
    auxSession := none }.log .initData

/-- `if (previous == 0) initData();`, and whether a second has passed. -/
def firstPacket (s : State) : State × Bool :=
  let s := if s.previous = 0 then initData s else s
  (s, s.previous < s.current)

/-- The counter of `perSecOps` and the line it logs. -/
def countSeconds (s : State) : State :=
  let s := { s with nodeSecCounter := s.nodeSecCounter + 1 }
  if 10 ≤ s.nodeSecCounter then
    { s with nodeSecCounter := 0 }.log (.counters s.ipSessionPool.freeCount s.usedSession
      s.nodelPool.freeCount (maxPoolNode - s.nodelPool.freeCount) s.unprocessedPackets
      s.unprocessedFlows)
  else
    s

/-- `perSecOps`. -/
def perSecOps : Prog State Unit := do
  Prog.act countSeconds
  cleanupFlows
  Prog.act fun s => { s with previous2 := s.previous, previous := s.current }

/-- The branch of `process_packet` in which no second has passed.  A clock that has stepped back
takes `previous` back with it. -/
def sameSecond (s : State) : State :=
  if s.previous = s.current then
    { s with previous := s.current }
  else if s.previous2 < s.current then
    { s with previous := s.previous2 }
  else
    s

/-- How `parsePacket` gets hold of a session. -/
def acquireSession (s : State) : State × Option SessionId :=
  match s.auxSession with
  | none =>
      let (s, session) := getIPSession s
      match session with
      | none => ({ s with unprocessedPackets := s.unprocessedPackets + 1 }, none)
      | some i => ({ s with auxSession := some i }, some i)
  | some i => (s.setSession i { s.ips i with incoming := .zero }, some i)

lemma acquireSession_of_none {s : State} (h : s.auxSession = none) :
    acquireSession s = match s.ipSessionPool.get with
      | none => ({ s.crash with unprocessedPackets := s.unprocessedPackets + 1 }, none)
      | some (_, none) => ({ s.log (.error "Pool de flujos vacío") with
          unprocessedPackets := s.unprocessedPackets + 1 }, none)
      | some (p, some i) => ({ s with
          ipSessionPool := p, usedSession := s.usedSession + 1, auxSession := some i }, some i) := by
  unfold acquireSession getIPSession
  rw [h]
  rcases s.ipSessionPool.get with _ | ⟨p, _ | i⟩
  · rfl
  · rfl
  · rfl

lemma acquireSession_of_some {s : State} {i : SessionId} (h : s.auxSession = some i) :
    acquireSession s = (s.setSession i { s.ips i with incoming := .zero }, some i) := by
  unfold acquireSession
  rw [h]

/-- Parsing into the session at hand; whether `insertFlow` is called. -/
def parseInto (p : Packet) (i : SessionId) (s : State) : State × Bool :=
  let parsed := parse p (s.ips i).incoming
  let session := { s.ips i with incoming := parsed.flow }
  let session := if parsed.stamped then
      { session with
        firstpacketTimestamp := s.lastPacketTimestamp
        lastpacketTimestamp := s.lastPacketTimestamp }
    else session
  let s := s.setSession i session
  match parsed.verdict with
  | .ignored => (s, false)
  | .malformed => ({ s with countPcktsMalformed := s.countPcktsMalformed + 1 }, false)
  | .accepted => (s.log (.reached p), true)

/-- `parsePacket`. -/
def parsePacket (p : Packet) : Prog State Unit := do
  match ← Prog.atomic acquireSession with
  | none => .ret ()
  | some i =>
      if ← Prog.atomic (parseInto p i) then
        insertFlow i
      else
        .ret ()

/-- `process_packet`. -/
def processPacket (p : Packet) : Prog State Unit := do
  Prog.act (stampClock p)
  if ← Prog.atomic firstPacket then
    perSecOps
  else
    Prog.act sameSecond
  if 14 ≤ p.caplen then
    parsePacket p
  else
    .ret ()

/-! ## The export thread -/

/-- Popping the next expired flow, under `sem_expired_list`. -/
def popExpired (drain : Bool) (idle : ExportPc) (s : State) : State :=
  match s.expiredFlowList with
  | [] => { s with exporter := idle }
  | n :: rest => { s with expiredFlowList := rest, exporter := .popped drain n }

/-- The next section of `exportThread`. -/
def exportStep (s : State) : State :=
  match s.exporter with
  | .loop => if s.stopEt then { s with exporter := .draining } else popExpired false .loop s
  | .popped drain n =>
      match s.sessionAt n with
      | none => s.crash
      | some i =>
          let s := s.setSession i { s.ips i with exportationTimestamp := s.lastPacketTimestamp }
          { s with exporter := .printed drain n i }.log (.exported i (s.ips i).record)
  | .printed drain n i => { releaseIPSession s i with exporter := .released drain n }
  | .released drain n =>
      let s := releaseNodel s n
      { s with
        flowsTotal := s.flowsTotal + 1
        exporter := if drain then .draining else .loop }
  | .draining => popExpired true .finished s
  | .finished => s

/-- A step of the export thread. -/
def ExportStep (s s' : State) : Prop :=
  s' = exportStep s

/-! ## Start and shutdown -/

/-- A session as `bzero` leaves it. -/
def IPSession.zero : IPSession where
  currentFlow := none
  exportationTimestamp := 0
  lastpacketTimestamp := 0
  firstpacketTimestamp := 0
  activeNode := none
  incoming := .zero

/-- The state in which `main` starts the threads. -/
def initialState : State where
  nodelPool := .alloc maxPoolNode
  ipSessionPool := .alloc maxPoolSession
  usedSession := 0
  nodeData := fun _ => .null
  ips := fun _ => .zero
  flowTable := fun _ => []
  activeFlowList := []
  flagsExpiredFlowList := []
  expiredFlowList := []
  auxSession := none
  nodelAux := 0
  naux := none
  lastPacketTimestamp := 0
  current := 0
  previous := 0
  previous2 := 0
  nodeSecCounter := 0
  unprocessedPackets := 0
  unprocessedFlows := 0
  countPcktsMalformed := 0
  flowsTotal := 0
  stopEt := false
  exporter := .loop
  fault := false
  trace := []

/-- `last_packet_timestamp = INFINITY`, converted to `uint64_t`. -/
def infinity : UInt64 := 0xFFFFFFFFFFFFFFFF

/-- `reset_flow_table`. -/
def resetFlowTable : Prog State Unit := do
  Prog.act fun s => { s with lastPacketTimestamp := infinity }.log .reset
  cleanupFlows

/-- `capturaSenial` between joining the process thread and joining the export thread. -/
def capturaSenial : Prog State Unit := do
  resetFlowTable
  Prog.act fun s => { s with stopEt := true }

/-! ## Runs -/

/-- What the process thread, or the shutdown after it, is doing. -/
inductive Phase where
  /-- Between two packets. -/
  | idle
  /-- In `process_packet`. -/
  | busy (rest : Prog State Unit)
  /-- In `capturaSenial`. -/
  | closing (rest : Prog State Unit)
  /-- Waiting for the export thread. -/
  | closed

/-- The runs of the monitor over the packets `ps`. -/
inductive Run : List Packet → State → Phase → Prop where
  | start : Run [] initialState .idle
  | packet {ps : List Packet} {s : State} (p : Packet) (h : Run ps s .idle) :
      Run (ps ++ [p]) s (.busy (processPacket p))
  | busy {ps : List Packet} {s : State} {u : State → State} {k : State → Prog State Unit}
      (h : Run ps s (.busy (.sec u k))) : Run ps (u s) (.busy (k s))
  | back {ps : List Packet} {s : State} (h : Run ps s (.busy (.ret ()))) : Run ps s .idle
  | shutdown {ps : List Packet} {s : State} (h : Run ps s .idle) :
      Run ps s (.closing capturaSenial)
  | closing {ps : List Packet} {s : State} {u : State → State} {k : State → Prog State Unit}
      (h : Run ps s (.closing (.sec u k))) : Run ps (u s) (.closing (k s))
  | close {ps : List Packet} {s : State} (h : Run ps s (.closing (.ret ()))) : Run ps s .closed
  | export {ps : List Packet} {s s' : State} {f : Phase} (h : Run ps s f) (hs : ExportStep s s') :
      Run ps s' f

end Flow
