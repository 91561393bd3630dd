import XdpFlows.Core.SessionWindow
import XdpFlows.Flow.Monitor

/-!
# The layout of the flow store

What the monitor's memory means.  A `Layout` says which node plays which part: every flow in the
table has an *entry*, a node in the active list, a node in a bucket and a session; a flow that left
the table has one node and one session.  `Owns g s` says that the memory `s` is laid out as `g`
says, every node and every session at one place; `Shows g a s` that the flows found there are those
of the abstract store `a`; `Lives g s` that the trace tells the story of every session from
insertion to export.

`lostNodes` and `lostSessions` are what a second call of `initData` forgets.
-/

namespace Flow

open SessionWindow

/-! ## The layout -/

/-- A flow in the table. -/
structure Entry where
  anode : NodeId
  bnode : NodeId
  sess : SessionId
deriving DecidableEq, Repr

/-- Which node plays which part.  `live` is in the order of the active list, `born` in the order of
insertion, the latest first. -/
structure Layout where
  live : List Entry
  born : List Entry
  expired : List (NodeId × SessionId)
  flags : List (NodeId × SessionId)
  hand : List (NodeId × SessionId)
  lostNodes : List NodeId
  lostSessions : List SessionId

/-- The flows on their way out. -/
def Layout.gone (g : Layout) : List (NodeId × SessionId) :=
  g.hand ++ g.expired ++ g.flags

/-- The node in the hand of the export thread. -/
def ExportPc.node : ExportPc → List NodeId
  | .popped _ n => [n]
  | .printed _ n _ => [n]
  | .released _ n => [n]
  | _ => []

/-- The node popped and not yet exported. -/
def ExportPc.poppedNode : ExportPc → List NodeId
  | .popped _ n => [n]
  | _ => []

/-- The session exported and not yet released. -/
def ExportPc.printedSession : ExportPc → List SessionId
  | .printed _ _ i => [i]
  | _ => []

/-- The flows exported and not yet counted. -/
def ExportPc.owed : ExportPc → ℕ
  | .printed _ _ _ => 1
  | .released _ _ => 1
  | _ => 0

/-- Whether the export thread has seen `stop_et`. -/
def ExportPc.drains : ExportPc → Bool
  | .popped drain _ => drain
  | .printed drain _ _ => drain
  | .released drain _ => drain
  | .draining => true
  | .finished => true
  | .loop => false

/-- The key of the flow in a session. -/
def State.key (s : State) (i : SessionId) : Key :=
  (s.ips i).incoming.key

/-- The record of the flow in a session. -/
def State.record (s : State) (i : SessionId) : FlowRecord :=
  (s.ips i).record

/-! ## Pools -/

/-- A pool in which every element is free or handed out, and one is kept back. -/
structure Pool.Ok (size : ℕ) (p : Pool) : Prop where
  freeCount : p.freeCount = p.free.length
  total : p.used.length + p.free.length = size
  nonempty : p.free ≠ []

lemma Pool.ok_alloc {size : ℕ} (h : 0 < size) : Pool.Ok size (.alloc size) where
  freeCount := by simp [alloc]
  total := by simp [alloc]
  nonempty := by
    simp only [alloc, ne_eq, List.reverse_eq_nil_iff, List.range_eq_nil]
    omega

/-- Taking an element fails exactly when one is left. -/
lemma Pool.Ok.get {size : ℕ} {p : Pool} (h : p.Ok size) :
    (p.free.length = 1 ∧ p.get = some (p, none))
      ∨ ∃ x rest q, p.free = x :: rest ∧ p.get = some (q, some x) ∧ q.free = rest
          ∧ q.Ok size := by
  obtain ⟨hcount, htotal, hne⟩ := h
  rcases p with ⟨free, used, freeCount⟩
  simp only at hcount htotal hne
  match free, hcount, htotal, hne with
  | [x], _, _, _ => exact Or.inl ⟨rfl, rfl⟩
  | x :: y :: rest, hcount, htotal, _ =>
      refine Or.inr ⟨x, y :: rest, _, rfl, rfl, rfl, ?_, ?_, by simp⟩
      · simp only [List.length_cons] at hcount ⊢
        omega
      · simp only [List.length_cons, List.length_append, List.length_nil] at htotal ⊢
        omega

/-- Giving an element back finds a carrier as long as something is handed out. -/
lemma Pool.Ok.release {size : ℕ} {p : Pool} (h : p.Ok size) (hlt : p.free.length < size) (x : ℕ) :
    ∃ q, p.release x = some q ∧ q.free = p.free ++ [x] ∧ q.Ok size := by
  obtain ⟨hcount, htotal, hne⟩ := h
  rcases p with ⟨free, used, freeCount⟩
  simp only at hcount htotal hne hlt
  match used, htotal with
  | [], htotal =>
      simp only [List.length_nil] at htotal
      omega
  | c :: rest, htotal =>
      refine ⟨_, rfl, rfl, ?_, ?_, by simp⟩
      · simp only [List.length_append, List.length_cons, List.length_nil]
        omega
      · simp only [List.length_append, List.length_cons, List.length_nil] at htotal ⊢
        omega

/-! ## Ownership -/

/-- All places a node can be at. -/
def Layout.nodes (g : Layout) (s : State) : List NodeId :=
  s.nodelPool.free ++ g.live.map Entry.anode ++ g.live.map Entry.bnode ++ g.expired.map Prod.fst
    ++ g.flags.map Prod.fst ++ s.exporter.node ++ s.naux.toList ++ g.lostNodes

/-- All places a session can be at. -/
def Layout.sessions (g : Layout) (s : State) : List SessionId :=
  s.ipSessionPool.free ++ s.auxSession.toList ++ g.live.map Entry.sess ++ g.expired.map Prod.snd
    ++ g.flags.map Prod.snd ++ g.hand.map Prod.snd ++ s.exporter.printedSession ++ g.lostSessions

/-- The pointers of a flow in the table. -/
structure Entry.Linked (nodeData : NodeId → Ptr) (ips : SessionId → IPSession) (e : Entry) :
    Prop where
  active : nodeData e.anode = .node e.bnode
  bucket : nodeData e.bnode = .session e.sess
  activeNode : (ips e.sess).activeNode = some e.anode
  currentFlow : (ips e.sess).currentFlow = some e.sess

/-- The memory is laid out as `g` says. -/
structure Owns (g : Layout) (s : State) : Prop where
  nodes : (g.nodes s).Perm (List.range maxPoolNode)
  sessions : (g.sessions s).Perm (List.range maxPoolSession)
  nodePool : s.nodelPool.Ok maxPoolNode
  sessionPool : s.ipSessionPool.Ok maxPoolSession
  active : s.activeFlowList = g.live.map Entry.anode
  expired : s.expiredFlowList = g.expired.map Prod.fst
  flags : s.flagsExpiredFlowList = g.flags.map Prod.fst
  hand : g.hand.map Prod.fst = s.exporter.poppedNode
  linked : ∀ e ∈ g.live, e.Linked s.nodeData s.ips
  left : ∀ w ∈ g.gone, s.nodeData w.1 = .session w.2
  bornPerm : g.born.Perm g.live
  bornOrder : ∀ k, g.born.filter (fun e => s.key e.sess = k)
    = g.live.filter fun e => s.key e.sess = k
  table : ∀ index, s.flowTable index
    = (g.born.filter fun e => (s.key e.sess).index = index).map Entry.bnode
  cleared : ∀ i ∈ s.ipSessionPool.free, (s.ips i).incoming = .zero
  naux : ∀ n, s.naux = some n → ∃ i, s.auxSession = some i ∧ s.nodeData n = .session i
  drains : s.exporter.drains = true → s.stopEt = true
  noFault : s.fault = false

/-! ## What the trace says -/

namespace Event

/-- The values the clock was set to. -/
def time? : Event → Option UInt64
  | received p => some p.ts
  | reset => some infinity
  | _ => none

/-- The packets that reach `insertFlow`. -/
def reached? : Event → Option Packet
  | reached p => some p
  | _ => none

/-- What is told of the abstract store. -/
def note? : Event → Option (Note UInt64)
  | tested last now => some (.tested last now)
  | expired _ r now => some (.left r.last now)
  | opened _ now others => some (.opened now others)
  | _ => none

def exported? : Event → Option FlowRecord
  | exported _ r => some r
  | _ => none

def isInit : Event → Bool
  | initData => true
  | _ => false

def isOpened : Event → Bool
  | opened _ _ _ => true
  | _ => false

/-- A call of `getNodel` that returns -1. -/
def isNodeError : Event → Bool
  | error text => text = "Pool de nodos vacío"
  | _ => false

end Event

namespace State

/-- The values of the clock. -/
def times (s : State) : List UInt64 :=
  s.trace.filterMap Event.time?

/-- The packets that reached `insertFlow`. -/
def reached (s : State) : List Packet :=
  s.trace.filterMap Event.reached?

def notes (s : State) : List (Note UInt64) :=
  s.trace.filterMap Event.note?

/-- The records passed to `export_data`. -/
def exported (s : State) : List FlowRecord :=
  s.trace.filterMap Event.exported?

/-- How often `initData` was called. -/
def inits (s : State) : ℕ :=
  s.trace.countP Event.isInit

/-- How often `insertFlowTable` put a session into the table. -/
def insertions (s : State) : ℕ :=
  s.trace.countP Event.isOpened

/-- How often `getNodel` returned -1. -/
def nodeErrors (s : State) : ℕ :=
  s.trace.countP Event.isNodeError

end State

/-- The stations of a session. -/
inductive Life where
  | inserted
  | expired (r : FlowRecord)
  | exported (r : FlowRecord)
deriving DecidableEq, Repr

/-- What an event means for session `i`. -/
def Event.life? (i : SessionId) : Event → Option Life
  | opened j _ _ => if j = i then some .inserted else none
  | expired j r _ => if j = i then some (.expired r) else none
  | exported j r => if j = i then some (.exported r) else none
  | _ => none

/-- The story of session `i`. -/
def State.life (s : State) (i : SessionId) : List Life :=
  s.trace.filterMap (Event.life? i)

/-- A story in which every insertion is followed by one expiry and one export, with the counters of
the expiry. -/
inductive Complete : List Life → Prop where
  | nil : Complete []
  | cycle {l : List Life} (r : FlowRecord) (h : Complete l) :
      Complete (l ++ [.inserted, .expired r, .exported r])

/-- The trace tells of every session where it is. -/
structure Lives (g : Layout) (s : State) : Prop where
  live : ∀ e ∈ g.live, ∃ l, Complete l ∧ s.life e.sess = l ++ [.inserted]
  gone : ∀ w ∈ g.gone, ∃ l, Complete l ∧ s.life w.2 = l ++ [.inserted, .expired (s.record w.2)]
  rest : ∀ i, i ∉ g.live.map Entry.sess → i ∉ g.gone.map Prod.snd → i ∉ g.lostSessions →
    Complete (s.life i)
  counted : s.flowsTotal + s.exporter.owed = s.exported.length
  tally : s.inits ≤ 1 → s.insertions = s.exported.length + g.live.length + g.gone.length
  keeps : s.inits ≤ 1 → g.lostNodes = [] ∧ g.lostSessions = []
  fresh : s.inits = 0 → s.previous = 0 ∧ g.live = [] ∧ g.gone = [] ∧ s.auxSession = none
    ∧ s.exporter.node = [] ∧ s.naux = none ∧ s.exported = [] ∧ s.reached = []

/-! ## The abstract store -/

/-- The order of times. -/
instance instLinearOrderTime : LinearOrder UInt64 where
  le_refl _ := UInt64.le_refl _
  le_trans _ _ _ := UInt64.le_trans
  le_antisymm _ _ := UInt64.le_antisymm
  le_total := UInt64.le_total
  lt_iff_le_not_ge a b := by
    simp only [UInt64.le_iff_toNat_le, UInt64.lt_iff_toNat_lt]
    exact Nat.lt_iff_le_and_not_ge
  toDecidableLE := inferInstance
  toDecidableEq := inferInstance
  toDecidableLT := inferInstance

/-- The expiration test as a relation. -/
def Stale (last now : UInt64) : Prop :=
  hasExpired last now = true

/-- With a clock that is not behind, the expiration test is what it is meant to be. -/
lemma stale_iff {last now : UInt64} (h : last ≤ now) :
    Stale last now ↔ last.toNat + expirationFlowTime.toNat < now.toNat := by
  rw [Stale, hasExpired, decide_eq_true_eq, UInt64.lt_iff_toNat_lt, UInt64.toNat_sub_of_le _ _ h]
  rw [UInt64.le_iff_toNat_le] at h
  omega

/-- The flow store as an instance of keyed sessions with a timeout. -/
def rules : Rules Packet Key UInt64 where
  key := Packet.key
  time := Packet.ts
  stale := Stale

lemma rules_waits : rules.Waits := by
  intro l m n hlm hmn hstale
  have hlt := (stale_iff hlm).mp hstale
  refine (stale_iff (hlm.trans hmn)).mpr (hlt.trans_le ?_)
  exact UInt64.le_iff_toNat_le.mp hmn

/-- The record of a session: the tuple and the addresses of its first packet, the number of its
packets and of their bytes, and the times of the first and the last one. -/
def recordOf (S : Session Packet) : FlowRecord where
  flow := { S.first.flow with
    npack := UInt32.ofNat S.packets.length
    nbytes := UInt64.ofNat (S.packets.map fun p => p.len.toNat).sum }
  first := S.first.ts
  last := S.latest.ts

/-- The flows in memory are the sessions of the abstract store `a`; `pend` is the packet that has
reached `insertFlow` and is not yet in it. -/
structure Shows (g : Layout) (a : Flows Packet UInt64) (pend : List Packet) (s : State) : Prop where
  reach : rules.Reach 0 a
  live : g.live.map (fun e => s.record e.sess) = a.live.map recordOf
  out : s.exported ++ g.gone.map (fun w => s.record w.2) = a.out.map recordOf
  now : a.now = s.lastPacketTimestamp
  times : a.times = s.times
  arrivals : s.reached = a.arrivals ++ pend
  notes : a.notes = s.notes
  intact : s.inits ≤ 1 → a.intact = true ∧ s.unprocessedFlows = 0 ∧ s.nodeErrors = 0

/-- The whole relation between memory and meaning. -/
structure Rep (g : Layout) (a : Flows Packet UInt64) (pend : List Packet) (s : State) : Prop where
  owns : Owns g s
  lives : Lives g s
  shows : Shows g a pend s

end Flow
