import XdpFlows.Core.Sections
import XdpFlows.Flow.Packet

/-!
# The flow store

The memory shared by the process thread and the export thread, and the functions of `list.c`,
`pool.c` and `IPflow.c` on it.  A circular list is the sequence of its nodes, so the list functions
are operations on sequences: `list_prepend_node` is `cons`, `list_append_node` puts a node at the
end, `list_unlink` is `erase`, `list_pop_first_node` takes the head, and the walks are searches.
Nodes and sessions are named by their position in the pools `nl` and `ips`.

A pool has its own nodes, the *carriers*.  All that matters of a carrier is the element its `data`
points to, so a pool is two lists of elements; those of the carriers in the used list are stale.

Dereferencing a null pointer, a failed assertion and a pointer to the wrong kind of thing set
`fault`.
-/

namespace Flow

open Sections

/-- A node of the pool `nl`. -/
abbrev NodeId := ℕ

/-- A session of the pool `ips`. -/
abbrev SessionId := ℕ

/-- `MAX_POOL_NODE`. -/
def maxPoolNode : ℕ := 5000

/-- The number of sessions, `MAX_POOL_NODE / 2`. -/
def maxPoolSession : ℕ := 2500

/-- `EXPIRATION_FLOW_TIME`, in microseconds. -/
def expirationFlowTime : UInt64 := 90000000

/-- What the `void *data` of a node points to. -/
inductive Ptr where
  | null
  | node (n : NodeId)
  | session (i : SessionId)
deriving DecidableEq, Repr

/-- `IPSession`.  `current_flow` only ever points to the `incoming` of some session. -/
structure IPSession where
  currentFlow : Option SessionId
  exportationTimestamp : UInt64
  lastpacketTimestamp : UInt64
  firstpacketTimestamp : UInt64
  activeNode : Option NodeId
  incoming : IPFlow
deriving DecidableEq, Repr

/-- What the export file shows of a session. -/
structure FlowRecord where
  flow : IPFlow
  first : UInt64
  last : UInt64
deriving DecidableEq, Repr

def IPSession.record (s : IPSession) : FlowRecord :=
  ⟨s.incoming, s.firstpacketTimestamp, s.lastpacketTimestamp⟩

/-- What an observer of the monitor can note down. -/
inductive Event where
  /-- `process_packet` was called. -/
  | received (p : Packet)
  /-- `initData` was called. -/
  | initData
  /-- `reset_flow_table` was called. -/
  | reset
  /-- The line `perSecOps` logs every ten calls. -/
  | counters (freeSession usedSession freeNodes usedNodes unprocessedPackets unprocessedFlows : ℕ)
  /-- `logError` and `logErrorCount`. -/
  | error (text : String)
  /-- `insertFlow` is called for a packet. -/
  | reached (p : Packet)
  /-- `last_packet_timestamp - lastpacket_timestamp` was compared with the timeout. -/
  | tested (last now : UInt64)
  /-- `insertFlowTable` put session `i` into the table, where sessions with the same key had their
  last packets at `others`. -/
  | opened (i : SessionId) (now : UInt64) (others : List UInt64)
  /-- `updateFlowTable` added a packet to session `i`. -/
  | merged (i : SessionId)
  /-- `cleanup_flows` moved session `i` to the expired flows. -/
  | expired (i : SessionId) (r : FlowRecord) (now : UInt64)
  /-- `export_data` was called for session `i`. -/
  | exported (i : SessionId) (r : FlowRecord)

/-- The export thread, by the section it runs next.  `drain` says that it is in the final loop. -/
inductive ExportPc where
  | loop
  | popped (drain : Bool) (n : NodeId)
  | printed (drain : Bool) (n : NodeId) (i : SessionId)
  | released (drain : Bool) (n : NodeId)
  | draining
  | finished
deriving DecidableEq, Repr

/-- A pool of preallocated elements. -/
structure Pool where
  free : List ℕ
  used : List ℕ
  freeCount : ℕ

/-- The global variables of the monitor.  `naux` is the local of `insertFlowTable` that holds a node
between its two calls of `getNodel`.

The counters are natural numbers where the source has `uint64_t` (`node_sec_counter` is an `uint8_t`).
They do not wrap: `usedSession` is at most the size of the pool (`everything_returns`), `nodeSecCounter`
goes back to `0` at `10`, and the others grow by one at most for a packet or an exported flow, so that
they would need `2 ^ 64` packets. -/
structure State where
  nodelPool : Pool
  ipSessionPool : Pool
  usedSession : ℕ
  nodeData : NodeId → Ptr
  ips : SessionId → IPSession
  flowTable : ℕ → List NodeId
  activeFlowList : List NodeId
  flagsExpiredFlowList : List NodeId
  expiredFlowList : List NodeId
  auxSession : Option SessionId
  nodelAux : NodeId
  naux : Option NodeId
  lastPacketTimestamp : UInt64
  current : UInt64
  previous : UInt64
  previous2 : UInt64
  nodeSecCounter : ℕ
  unprocessedPackets : ℕ
  unprocessedFlows : ℕ
  countPcktsMalformed : ℕ
  flowsTotal : ℕ
  stopEt : Bool
  exporter : ExportPc
  fault : Bool
  trace : List Event

namespace State

def log (s : State) (e : Event) : State :=
  { s with trace := s.trace ++ [e] }

def crash (s : State) : State :=
  { s with fault := true }

/-- Writing a session. -/
def setSession (s : State) (i : SessionId) (v : IPSession) : State :=
  { s with ips := Function.update s.ips i v }

/-- Writing the `data` of a node. -/
def setData (s : State) (n : NodeId) (v : Ptr) : State :=
  { s with nodeData := Function.update s.nodeData n v }

/-- Writing a bucket of the flow table. -/
def setBucket (s : State) (index : ℕ) (l : List NodeId) : State :=
  { s with flowTable := Function.update s.flowTable index l }

@[simp] lemma setSession_self (s : State) (i : SessionId) (v : IPSession) :
    (s.setSession i v).ips i = v :=
  Function.update_self ..

lemma setSession_of_ne (s : State) {i j : SessionId} (v : IPSession) (h : j ≠ i) :
    (s.setSession i v).ips j = s.ips j :=
  Function.update_of_ne h ..

@[simp] lemma setData_self (s : State) (n : NodeId) (v : Ptr) :
    (s.setData n v).nodeData n = v :=
  Function.update_self ..

lemma setData_of_ne (s : State) {n m : NodeId} (v : Ptr) (h : m ≠ n) :
    (s.setData n v).nodeData m = s.nodeData m :=
  Function.update_of_ne h ..

end State

/-! ## The pools -/

namespace Pool

/-- Elements are pushed to the front one by one, so the last one is handed out first. -/
def alloc (size : ℕ) : Pool where
  free := (List.range size).reverse
  used := []
  freeCount := size

/-- Taking an element.  The last one is put back; an empty list would be dereferenced. -/
def get (p : Pool) : Option (Pool × Option ℕ) :=
  match p.free with
  | [] => none
  | [_] => some (p, none)
  | x :: y :: rest =>
      some (⟨y :: rest, p.used ++ [x], p.freeCount - 1⟩, some x)

/-- Giving an element back, by the first carrier of the used list. -/
def release (p : Pool) (x : ℕ) : Option Pool :=
  match p.used with
  | [] => none
  | _ :: rest => some ⟨p.free ++ [x], rest, p.freeCount + 1⟩

end Pool

/-- `getNodel`: 0 and a node in `nodel_aux`, or -1. -/
def getNodel (s : State) : State × ℤ :=
  match s.nodelPool.get with
  | none => (s.crash, -1)
  | some (_, none) => (s.log (.error "Pool de nodos vacío"), -1)
  | some (p, some n) => ({ s with nodelPool := p, nodelAux := n }, 0)

/-- `releaseNodel`. -/
def releaseNodel (s : State) (f : NodeId) : State :=
  match s.nodelPool.release f with
  | none => s.crash
  | some p => { s with nodelPool := p }

/-- `getIPSession`. -/
def getIPSession (s : State) : State × Option SessionId :=
  match s.ipSessionPool.get with
  | none => (s.crash, none)
  | some (_, none) => (s.log (.error "Pool de flujos vacío"), none)
  | some (p, some i) => ({ s with ipSessionPool := p, usedSession := s.usedSession + 1 }, some i)

/-- `releaseIPSession`. -/
def releaseIPSession (s : State) (f : SessionId) : State :=
  let s := s.setSession f { s.ips f with incoming := .zero }
  match s.ipSessionPool.release f with
  | none => s.crash
  | some p => { s with ipSessionPool := p, usedSession := s.usedSession - 1 }

/-! ## Inserting and updating -/

/-- The session a bucket node points to. -/
def State.sessionAt (s : State) (n : NodeId) : Option SessionId :=
  match s.nodeData n with
  | .session i => some i
  | _ => none

/-- `compareTuple(n->data, node_to_find->data) == 0`. -/
def State.matches (s : State) (i : SessionId) (n : NodeId) : Bool :=
  match s.sessionAt n with
  | some j => compareTupleFlow (s.ips j).incoming (s.ips i).incoming = 0
  | none => false

/-- `list_search(&list, &static_node, compareTuple)` in a bucket. -/
def listSearch (s : State) (list : List NodeId) (i : SessionId) : Option NodeId :=
  list.find? (s.matches i)

/-- The expiration test of `insertFlow` and of `cleanup_flows`, in 64-bit arithmetic. -/
def hasExpired (last now : UInt64) : Bool :=
  expirationFlowTime < now - last

/-- `updateFlowTable`. -/
def updateFlowTable (s : State) (j : SessionId) (newFlow : IPFlow) : State :=
  let cur := s.ips j
  match cur.currentFlow, cur.activeNode with
  | some c, some n =>
      let flow := (s.ips c).incoming
      let s := s.setSession c { s.ips c with
        incoming := { flow with nbytes := flow.nbytes + newFlow.nbytes, npack := flow.npack + 1 } }
      let s := s.setSession j { s.ips j with lastpacketTimestamp := s.lastPacketTimestamp }
      { s with activeFlowList := n :: s.activeFlowList.erase n }
  | _, _ => s.crash

/-- `insertFlowTable` up to its first call of `getNodel`, and what it does with the node. -/
def insertFlowTableFirst (i : SessionId) (s : State) : State × ℤ :=
  let s := s.setSession i { s.ips i with
    lastpacketTimestamp := s.lastPacketTimestamp
    firstpacketTimestamp := s.lastPacketTimestamp
    currentFlow := some i }
  let (s, ret) := getNodel s
  if ret = -1 then
    ({ s with unprocessedFlows := s.unprocessedFlows + 1 }, -1)
  else
    ({ s with naux := some s.nodelAux }.setData s.nodelAux (.session i), 0)

/-- Where the last packets of the sessions with the key of `i` are. -/
def State.sameKey (s : State) (i : SessionId) (list : List NodeId) : List UInt64 :=
  (list.filter (s.matches i)).filterMap fun n =>
    (s.sessionAt n).map fun j => (s.ips j).lastpacketTimestamp

/-- The second call of `getNodel` and the links into the bucket and the active list.  `insertFlow`
then returns NULL, which its caller assigns to `aux_session`. -/
def insertFlowTableSecond (i : SessionId) (index : ℕ) (s : State) : State × ℤ :=
  let (s, ret) := getNodel s
  if ret = -1 then
    ({ s with unprocessedFlows := s.unprocessedFlows + 1 }, -1)
  else
    match s.naux with
    | none => (s.crash, 0)
    | some naux =>
        let list := s.flowTable index
        let s := s.log (.opened i s.lastPacketTimestamp (s.sameKey i list))
        let newActiveNode := s.nodelAux
        let s := s.setData newActiveNode (.node naux)
        let s := s.setBucket index (naux :: list)
        let s := { s with activeFlowList := newActiveNode :: s.activeFlowList }
        let s := s.setSession i { s.ips i with activeNode := some newActiveNode }
        ({ s with naux := none, auxSession := none }, 0)

/-- `releaseNodel(naux)`, when the second node is not to be had. -/
def insertFlowTableUndo (s : State) : State :=
  match s.naux with
  | none => s.crash
  | some naux => { releaseNodel s naux with naux := none }

/-- `insertFlowTable`. -/
def insertFlowTable (i : SessionId) (index : ℕ) : Prog State Unit := do
  let ret ← Prog.atomic (insertFlowTableFirst i)
  if ret = -1 then
    .ret ()
  else
    let ret ← Prog.atomic (insertFlowTableSecond i index)
    if ret = -1 then
      Prog.act insertFlowTableUndo
    else
      .ret ()

/-- What the lookup of `insertFlow` decides. -/
inductive Lookup where
  | insert (index : ℕ)
  | done
deriving DecidableEq, Repr

/-- `insertFlow` up to `insertFlowTable`; `updateFlowTable` is part of it. -/
def insertFlowLookup (i : SessionId) (s : State) : State × Lookup :=
  let newFlow := (s.ips i).incoming
  let index := getIndex newFlow
  match listSearch s (s.flowTable index) i with
  | none => (s, .insert index)
  | some n =>
      match s.sessionAt n with
      | none => (s.crash, .done)
      | some j =>
          let last := (s.ips j).lastpacketTimestamp
          let s := s.log (.tested last s.lastPacketTimestamp)
          if hasExpired last s.lastPacketTimestamp then
            (s, .insert index)
          else
            ((updateFlowTable s j newFlow).log (.merged j), .done)

/-- `insertFlow`. -/
def insertFlow (i : SessionId) : Prog State Unit := do
  match ← Prog.atomic (insertFlowLookup i) with
  | .insert index => insertFlowTable i index
  | .done => .ret ()

/-! ## Expiring -/

/-- `list_get_prev_node`. -/
def listGetPrevNode (list : List NodeId) (n : NodeId) : Option NodeId :=
  (list.takeWhile (· ≠ n)).getLast?

/-- The part that both loops of `cleanup_flows` have: the session leaves the hash table, the node
`n` points to it directly and the bucket node goes back to the pool. -/
def unlinkSession (s : State) (n b : NodeId) (i : SessionId) : State :=
  let index := getIndex (s.ips i).incoming
  let s := s.setBucket index ((s.flowTable index).erase b)
  let s := s.setData n (s.nodeData b)
  releaseNodel s b

/-- One turn of the first loop of `cleanup_flows`; `none` ends it. -/
def cleanupStep (n : NodeId) (s : State) : State × Option NodeId :=
  match s.nodeData n with
  | .node b =>
      match s.sessionAt b with
      | none => (s.crash, none)
      | some i =>
          let cur := s.ips i
          let s := s.log (.tested cur.lastpacketTimestamp s.lastPacketTimestamp)
          if hasExpired cur.lastpacketTimestamp s.lastPacketTimestamp then
            let s := unlinkSession s n b i
            let next := listGetPrevNode s.activeFlowList n
            let s := { s with
              activeFlowList := s.activeFlowList.erase n
              flagsExpiredFlowList := s.flagsExpiredFlowList ++ [n] }
            (s.log (.expired i cur.record s.lastPacketTimestamp), next)
          else
            (s, none)
  | _ => (s.crash, none)

/-- The first loop of `cleanup_flows`.  It takes a node off the active list in every turn, so it is
over after as many turns as that list has nodes. -/
def cleanupLoop : ℕ → Option NodeId → Prog State Unit
  | _, none => .ret ()
  | 0, some _ => Prog.act State.crash
  | fuel + 1, some n => do
      let next ← Prog.atomic (cleanupStep n)
      cleanupLoop fuel next

/-- One turn of the loop over the flows expired by flag. -/
def flagsStep (n : NodeId) (s : State) : State × Option NodeId :=
  match s.nodeData n with
  | .node b =>
      match s.sessionAt b with
      | none => (s.crash, none)
      | some i =>
          let s := unlinkSession s n b i
          (s, listGetPrevNode s.flagsExpiredFlowList n)
  | _ => (s.crash, none)

/-- The second loop of `cleanup_flows`. -/
def flagsLoop : ℕ → Option NodeId → Prog State Unit
  | _, none => .ret ()
  | 0, some _ => Prog.act State.crash
  | fuel + 1, some n => do
      let next ← Prog.atomic (flagsStep n)
      flagsLoop fuel next

/-- The end of `cleanup_flows`: the flows just expired go behind those to be exported. -/
def spliceExpired (s : State) : State :=
  { s with
    expiredFlowList := s.expiredFlowList ++ s.flagsExpiredFlowList
    flagsExpiredFlowList := [] }

/-- `cleanup_flows`. -/
def cleanupFlows : Prog State Unit := do
  let (flags, active) ← Prog.atomic fun s => (s, (s.flagsExpiredFlowList, s.activeFlowList))
  cleanupLoop active.length active.getLast?
  flagsLoop flags.length flags.getLast?
  Prog.act spliceExpired

end Flow
