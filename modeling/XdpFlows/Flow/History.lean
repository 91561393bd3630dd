import XdpFlows.Flow.Runs

/-!
# The history of a session

The trace tells which packets were put into a session since it was inserted last (`joined`).  What the
session holds is the record of these packets (`Run.recounts`): their number and their bytes in the
width of the counters, the times of the first and of the last one.  The same is true of every record
that was exported, with the packets up to the export.

With times below 2^63 the packets of a session follow each other in order and without a gap longer
than the timeout, although the clock may step back (`times_never_run_backwards`).
-/

namespace Flow

open SessionWindow Sections

/-! ## The packets of a session -/

/-- Reading the trace for session `i`: the packet at hand, and the packets put into the session since
it was inserted. -/
def Event.join (i : SessionId) : Option Packet × List Packet → Event → Option Packet × List Packet
  | (_, l), .reached p => (some p, l)
  | (hand, l), .opened j _ _ => (hand, if j = i then hand.toList else l)
  | (hand, l), .merged j => (hand, if j = i then l ++ hand.toList else l)
  | x, _ => x

/-- The packets put into session `i` since it was inserted last. -/
def joined (i : SessionId) (trace : List Event) : List Packet :=
  (trace.foldl (Event.join i) (none, [])).2

section Joined

variable (i : SessionId) (trace : List Event)

lemma join_hand : (trace.foldl (Event.join i) (none, [])).1
    = (trace.filterMap Event.reached?).getLast? := by
  induction trace using List.reverseRecOn with
  | nil => rfl
  | append_singleton l e ih =>
      rw [List.foldl_append, List.filterMap_append]
      cases e with
      | reached p => simp [Event.join, Event.reached?]
      | _ => simpa [Event.join, Event.reached?] using ih

lemma joined_aside {l : List Event} (h : ∀ e ∈ l, e.joins? = none) :
    joined i (trace ++ l) = joined i trace := by
  induction l using List.reverseRecOn with
  | nil => rw [List.append_nil]
  | append_singleton l e ih =>
      rw [← ih fun x hx => h x (by simp [hx]), ← List.append_assoc, joined, List.foldl_append]
      have he := h e (by simp)
      cases e with
      | opened _ _ _ => exact absurd he (by simp [Event.joins?])
      | merged _ => exact absurd he (by simp [Event.joins?])
      | _ => rfl

lemma joined_opened (j : SessionId) (now : UInt64) (others : List UInt64) :
    joined i (trace ++ [.opened j now others])
      = if j = i then ((trace.filterMap Event.reached?).getLast?).toList else joined i trace := by
  rw [← join_hand i trace, joined, List.foldl_append]
  rfl

/-- The age of the session is tested before the packet is put into it. -/
lemma joined_merged (j : SessionId) (last now : UInt64) :
    joined i (trace ++ [.tested last now, .merged j]) = if j = i
      then joined i trace ++ ((trace.filterMap Event.reached?).getLast?).toList
      else joined i trace := by
  rw [← join_hand i trace, joined, List.foldl_append]
  rfl

end Joined

/-! ## What a session holds -/

/-- `r` is the record of the packets put into session `i`, none of which came too late after the one
before it.  `T` is what is known of the times of packets. -/
def Told (T : UInt64 → Prop) (trace : List Event) (i : SessionId) (r : FlowRecord) : Prop :=
  ∃ S : Session Packet, joined i trace = S.packets ∧ r = recordOf S ∧ (∀ p ∈ S.packets, T p.ts)
    ∧ S.packets.IsChain fun p q => ¬ Stale p.ts q.ts

/-- The flows in memory, and those exported, are as the trace tells. -/
structure Recounts (T : UInt64 → Prop) (s : State) : Prop where
  held : ∀ i, s.InTable i ∨ s.Leaving i → Told T s.trace i (s.record i)
  exported : ∀ l i r m, s.trace = l ++ .exported i r :: m → Told T l i r

section Recounts

variable {T : UInt64 → Prop} {s s' : State} {i : SessionId} {r : FlowRecord}

lemma Told.aside {trace l : List Event} (h : Told T trace i r) (hl : ∀ e ∈ l, e.joins? = none) :
    Told T (trace ++ l) i r := by
  obtain ⟨S, hjoined, hr⟩ := h
  exact ⟨S, (joined_aside i trace hl).trans hjoined, hr⟩

/-- An exported record in a longer trace. -/
lemma Recounts.exported_append (h : Recounts T s) {l : List Event} (hl : ∀ e ∈ l, e.Aside s)
    {a b : List Event} (heq : s.trace ++ l = a ++ .exported i r :: b) : Told T a i r := by
  rcases List.append_eq_append_iff.mp heq with ⟨m, rfl, hm⟩ | ⟨m, hm, hb⟩
  · have haside : (Event.exported i r).Aside s := hl _ (by simp [hm])
    obtain ⟨hleaving, rfl⟩ := haside.2 i r rfl
    exact (h.held i (.inr hleaving)).aside fun e he => (hl e (by simp [hm, he])).1
  · cases m with
    | nil =>
        rw [List.nil_append] at hb
        have haside : (Event.exported i r).Aside s := hl _ (by rw [← hb]; exact List.mem_cons_self ..)
        obtain ⟨hleaving, rfl⟩ := haside.2 i r rfl
        have htold := h.held i (.inr hleaving)
        rwa [hm, List.append_nil] at htold
    | cons e m =>
        obtain ⟨rfl, -⟩ := List.cons.inj hb
        exact h.exported a i r m hm

lemma Still.recounts (h : Still s s') (hs : Recounts T s) : Recounts T s' := by
  obtain ⟨l, htrace, hl⟩ := h.trace
  refine ⟨fun i hi => ?_, fun a i r b heq => ?_⟩
  · have hi' : s.InTable i ∨ s.Leaving i := hi.elim (fun ht => .inl (h.table i ht)) (h.leaving i)
    rw [htrace, h.record i hi' hi]
    exact (hs.held i hi').aside fun e he => (hl e he).1
  · rw [htrace] at heq
    exact hs.exported_append hl heq

/-- No record was exported in `l`. -/
lemma Recounts.exported_silent (h : Recounts T s) {l : List Event} (hl : ∀ e ∈ l, e.exported? = none)
    {a b : List Event} (heq : s.trace ++ l = a ++ .exported i r :: b) : Told T a i r := by
  rcases List.append_eq_append_iff.mp heq with ⟨m, rfl, hm⟩ | ⟨m, hm, hb⟩
  · exact absurd (hl (.exported i r) (by simp [hm])) (by simp [Event.exported?])
  · cases m with
    | nil =>
        rw [List.nil_append] at hb
        exact absurd (hl (.exported i r) (by simp [← hb])) (by simp [Event.exported?])
    | cons e m =>
        obtain ⟨rfl, -⟩ := List.cons.inj hb
        exact h.exported a i r m hm

/-- Another packet of the session. -/
lemma Told.add {trace : List Event} {p : Packet} (h : Told T trace i r)
    (hreached : (trace.filterMap Event.reached?).getLast? = some p)
    (hT : T p.ts) (hfresh : ¬ Stale r.last p.ts) (last now : UInt64) :
    Told T (trace ++ [.tested last now, .merged i]) i (r.grow p) := by
  obtain ⟨S, hjoined, rfl, htimes, hchain⟩ := h
  refine ⟨S.add p, ?_, (recordOf_add S p).symm, fun q hq => ?_, ?_⟩
  · rw [joined_merged, if_pos rfl, hreached, hjoined, Session.packets_add]
    rfl
  · rw [Session.packets_add, List.mem_append, List.mem_singleton] at hq
    rcases hq with hq | rfl
    · exact htimes q hq
    · exact hT
  · obtain ⟨g, hg⟩ := S.packets_eq_concat
    rw [Session.packets_add, List.isChain_append]
    refine ⟨hchain, List.isChain_singleton _, ?_⟩
    rw [hg, List.getLast?_concat]
    rintro x hx y hy
    rw [Option.mem_some_iff] at hx
    rw [List.head?_cons, Option.mem_some_iff] at hy
    rw [← hx, ← hy]
    exact hfresh

lemma Merges.recounts {p : Packet} {j : SessionId} (h : Merges p j s s') (hT : ∀ t ∈ s.times, T t)
    (hs : Recounts T s) : Recounts T s' := by
  refine ⟨fun i hi => ?_, fun a i r b heq => ?_⟩
  · rw [h.trace]
    by_cases hij : i = j
    · rw [hij, h.record]
      exact (hs.held j (.inl h.inTable)).add h.handles.reached
        (hT _ (List.mem_of_getLast? h.handles.time)) h.fresh _ _
    · have hi' : s.InTable i ∨ s.Leaving i :=
        hi.imp (h.table i).mp fun hl => (h.leaving i hl).1
      obtain ⟨S, hjoined, hr, hrest⟩ := hs.held i hi'
      refine ⟨S, ?_, (h.others i hij).trans hr, hrest⟩
      rw [joined_merged, if_neg (Ne.symm hij), hjoined]
  · rw [h.trace] at heq
    exact hs.exported_silent (by simp [Event.exported?]) heq

lemma Opens.recounts {p : Packet} {j : SessionId} (h : Opens p j s s') (hT : ∀ t ∈ s.times, T t)
    (hs : Recounts T s) : Recounts T s' := by
  obtain ⟨others, htrace⟩ := h.trace
  refine ⟨fun i hi => ?_, fun a i r b heq => ?_⟩
  · rw [htrace]
    by_cases hij : i = j
    · refine ⟨.start p, ?_, by rw [hij, h.record], fun q hq => ?_, List.isChain_singleton p⟩
      · rw [joined_opened, if_pos hij.symm]
        exact congrArg Option.toList h.handles.reached
      · rw [Session.packets_start, List.mem_singleton] at hq
        rw [hq]
        exact hT _ (List.mem_of_getLast? h.handles.time)
    · have hi' : s.InTable i ∨ s.Leaving i :=
        hi.imp (fun ht => ((h.table i).mp ht).resolve_left hij) fun hl => (h.leaving i hl).1
      obtain ⟨S, hjoined, hr, hrest⟩ := hs.held i hi'
      refine ⟨S, ?_, (h.others i hij).trans hr, hrest⟩
      rw [joined_opened, if_neg (Ne.symm hij), hjoined]
  · rw [htrace] at heq
    exact hs.exported_silent (by simp [Event.exported?]) heq

/-- **Every effect is told by the trace.** -/
lemma Effects.recounts (h : Effects s s') (hT : ∀ t ∈ s.times, T t) (hs : Recounts T s) :
    Recounts T s' := by
  obtain ⟨i, h⟩ := h
  cases h with
  | still h => exact h.recounts hs
  | merge h => exact h.recounts hT hs
  | start h => exact h.recounts hT hs

end Recounts

/-- **The history of every session**, at every moment of every run. -/
theorem Run.recounts {T : UInt64 → Prop} {ps : List Packet} {s : State} {f : Phase} (h : Run ps s f)
    (hT : ∀ p ∈ ps, T p.ts) : Recounts T s := by
  refine h.invariant ⟨fun i hi => ?_, fun l i r m heq => ?_⟩ (fun s s' hT hs he => he.recounts hT hs)
    (fun s s' hs he => he.recounts hs) hT
  · obtain ⟨n, hn, -⟩ | ⟨n, hn, -⟩ := hi
    · simp [State.buckets, initialState] at hn
    · simp [State.leaving, initialState, ExportPc.poppedNode] at hn
  · exact absurd heq (by simp [initialState])

/-! ## Times -/

/-- The `duration` of `printTupleFileText`. -/
def FlowRecord.duration (r : FlowRecord) : UInt64 :=
  r.last / 1000000 - r.first / 1000000 + 1

/-- The times of a session run forward. -/
structure Orderly (trace : List Event) (i : SessionId) (r : FlowRecord) : Prop where
  forward : r.first ≤ r.last
  gaps : (joined i trace).IsChain fun p q =>
    p.ts ≤ q.ts ∧ q.ts.toNat ≤ p.ts.toNat + expirationFlowTime.toNat
  /-- The subtraction does not wrap. -/
  duration : (r.duration.toNat : ℤ) = r.last.toNat / 1000000 - r.first.toNat / 1000000 + 1
  positive : 1 ≤ r.duration

/-- The run goes on from `x` to `y`, with session `i` in the table all the while. -/
def Keeps (i : SessionId) : Config → Config → Prop :=
  Relation.ReflTransGen fun x y => Turn x y ∧ x.state.InTable i ∧ y.state.InTable i

section Times

/-- Before 2^63 a packet that has not come too late has come later: the difference would wrap. -/
lemma later_of_fresh {t u : UInt64} (ht : t.toNat < 2 ^ 63) (hu : u.toNat < 2 ^ 63)
    (h : ¬ Stale t u) : t ≤ u ∧ u.toNat ≤ t.toNat + expirationFlowTime.toNat := by
  have hexp : expirationFlowTime.toNat = 90000000 := rfl
  have hle : t ≤ u := by
    by_contra hlt
    refine h ?_
    rw [UInt64.le_iff_toNat_le, not_le] at hlt
    rw [Stale, hasExpired, decide_eq_true_eq, UInt64.lt_iff_toNat_lt, UInt64.toNat_sub]
    omega
  refine ⟨hle, ?_⟩
  rw [stale_iff hle] at h
  omega

/-- What is told of a session with early packets. -/
lemma Told.orderly {trace : List Event} {i : SessionId} {r : FlowRecord}
    (h : Told (fun t => t.toNat < 2 ^ 63) trace i r) : Orderly trace i r := by
  obtain ⟨S, hjoined, rfl, hearly, hchain⟩ := h
  have hgaps : S.packets.IsChain fun p q =>
      p.ts ≤ q.ts ∧ q.ts.toNat ≤ p.ts.toNat + expirationFlowTime.toNat :=
    hchain.imp_of_mem_imp fun p q hp hq hfresh => later_of_fresh (hearly p hp) (hearly q hq) hfresh
  have hforward : S.first.ts ≤ S.latest.ts := by
    have hsorted : (S.packets.map Packet.ts).Pairwise (· ≤ ·) := by
      rw [← List.isChain_iff_pairwise, List.isChain_map]
      exact hgaps.imp fun p q hpq => hpq.1
    rw [Session.packets, List.map_cons, List.pairwise_cons] at hsorted
    rcases List.eq_nil_or_concat S.later with hnil | ⟨l, q, hlater⟩
    · simp [Session.latest, hnil]
    · refine hsorted.1 _ (List.mem_map_of_mem ?_)
      simp [Session.latest, hlater]
  have hle : S.first.ts / 1000000 ≤ S.latest.ts / 1000000 := by
    rw [UInt64.le_iff_toNat_le] at hforward ⊢
    rw [UInt64.toNat_div, UInt64.toNat_div]
    exact Nat.div_le_div_right hforward
  have hduration : (recordOf S).duration.toNat
      = S.latest.ts.toNat / 1000000 - S.first.ts.toNat / 1000000 + 1 := by
    have hlt := S.latest.ts.toNat_lt
    show (S.latest.ts / 1000000 - S.first.ts / 1000000 + 1).toNat = _
    rw [UInt64.toNat_add, UInt64.toNat_sub_of_le _ _ hle, UInt64.toNat_div, UInt64.toNat_div]
    exact Nat.mod_eq_of_lt (by simp only [UInt64.reduceToNat]; omega)
  refine ⟨hforward, hjoined ▸ hgaps, ?_, ?_⟩
  · rw [UInt64.le_iff_toNat_le] at hforward
    show _ = (S.latest.ts.toNat : ℤ) / 1000000 - S.first.ts.toNat / 1000000 + 1
    rw [hduration]
    omega
  · rw [UInt64.le_iff_toNat_le, hduration]
    exact Nat.le_add_left ..

/-- A session that stays in the table. -/
lemma Run.last_le {x y : Config} {i : SessionId} (h : Run x.packets x.state x.phase)
    (hturn : Turn x y) (hearly : ∀ p ∈ x.packets, p.ts.toNat < 2 ^ 63) (hx : x.state.InTable i)
    (hy : y.state.InTable i) : (x.state.record i).last ≤ (y.state.record i).last := by
  rcases h.effects hturn with hstill | ⟨⟨k, heffect⟩, htimes⟩
  · exact (congrArg FlowRecord.last (hstill.record i (.inl hx) (.inl hy))).ge
  · cases heffect with
    | still hstill => exact (congrArg FlowRecord.last (hstill.record i (.inl hx) (.inl hy))).ge
    | @merge p j hmerges =>
        by_cases hij : i = j
        · obtain ⟨S, -, hrecord, hS, -⟩ :=
            (h.recounts (T := fun t => t.toNat < 2 ^ 63) hearly).held i (.inl hx)
          have hlast : ((x.state.record i).last).toNat < 2 ^ 63 := by
            obtain ⟨g, hg⟩ := S.packets_eq_concat
            rw [hrecord]
            exact hS S.latest (by simp [hg])
          obtain ⟨q, hq, hts⟩ :=
            List.mem_map.mp (htimes _ (List.mem_of_getLast? hmerges.handles.time))
          have hp : p.ts.toNat < 2 ^ 63 := hts ▸ hearly q hq
          rw [hij] at hlast ⊢
          rw [hmerges.record]
          exact (later_of_fresh hlast hp hmerges.fresh).1
        · rw [hmerges.others i hij]
    | @start p hopens =>
        have hik : i ≠ k := by
          rintro rfl
          exact hopens.new hx
        rw [hopens.others i hik]

/-- **Session times never run backwards**, whatever the clock does below 2^63. -/
theorem times_never_run_backwards {x : Config} (h : Run x.packets x.state x.phase)
    (hearly : ∀ p ∈ x.packets, p.ts.toNat < 2 ^ 63) :
    (∀ i, x.state.InTable i ∨ x.state.Leaving i → Orderly x.state.trace i (x.state.record i))
      ∧ (∀ l i r m, x.state.trace = l ++ .exported i r :: m → Orderly l i r)
      ∧ ∀ i y, Keeps i x y → (∀ p ∈ y.packets, p.ts.toNat < 2 ^ 63) →
        (x.state.record i).last ≤ (y.state.record i).last := by
  have hrecounts := h.recounts (T := fun t => t.toNat < 2 ^ 63) hearly
  refine ⟨fun i hi => (hrecounts.held i hi).orderly,
    fun l i r m heq => (hrecounts.exported l i r m heq).orderly, fun i y hkeeps => ?_⟩
  have hboth : (∀ p ∈ y.packets, p.ts.toNat < 2 ^ 63) → Run y.packets y.state y.phase
      ∧ (x.state.record i).last ≤ (y.state.record i).last := by
    induction hkeeps with
    | refl => exact fun _ => ⟨h, le_refl _⟩
    | @tail y z _ hstep ih =>
        intro hz
        obtain ⟨hturn, hy, hz'⟩ := hstep
        have hsub : ∀ p ∈ y.packets, p.ts.toNat < 2 ^ 63 := fun p hp => hz p (hturn.packets_subset hp)
        obtain ⟨hrun, hle⟩ := ih hsub
        exact ⟨hrun.turn hturn, hle.trans (hrun.last_le hturn hsub hy hz')⟩
  exact fun hy => (hboth hy).2

/-- Three packets of one flow, the third older than the other two. -/
def rollback : List Packet :=
  [datagram 1 100 0, datagram 1 101 0, datagram 1 99 0]

/-- The third packet gets a flow of its own, and both flows are in order. -/
theorem times_never_run_backwards_rollback : (monitor rollback).activeFlowList.length = 2
    ∧ ∀ i, (monitor rollback).InTable i ∨ (monitor rollback).Leaving i →
      Orderly (monitor rollback).trace i ((monitor rollback).record i) := by
  have hearly : ∀ p ∈ rollback, p.ts.toNat < 2 ^ 63 := by
    simp only [rollback, List.forall_mem_cons]
    decide +kernel
  have htwo : (monitor rollback).activeFlowList.length = 2 := by decide +kernel
  have hrun := run_monitor rollback
  generalize monitor rollback = s at htwo hrun ⊢
  exact ⟨htwo, (times_never_run_backwards (x := ⟨rollback, s, .idle⟩) hrun hearly).1⟩

end Times

end Flow
