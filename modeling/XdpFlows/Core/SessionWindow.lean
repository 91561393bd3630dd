import XdpFlows.Core.Lists
import Mathlib.Logic.Relation

/-!
# Keyed sessions with a timeout

Packets arrive one after the other, each with a key and a time.  Packets of one key that follow each
other closely belong to one *session*; a packet that comes too late opens a new one.  A store keeps
the open sessions with the most recently used one in front, moves stale ones from the back to a
queue of finished sessions, and looks a key up from the front.

`Flows` is the state of such a store and `Rules.Step` what may happen to it.  The clock is free to
step backwards, the store may be wiped and a packet may be dropped; `intact` remembers whether
anything was ever lost.  Four invariants hold in every reachable state:

* `Reach.inOrder`: with a clock that does not step back, sessions leave in the order of their last
  packet.
* `Reach.segments`: if besides nothing was lost, the sessions of a key are its packets cut at the
  gaps.
* `Reach.packets_perm`: if nothing was lost, every packet is in exactly one session, whatever the
  clock does.
* `Reach.noneEarly`: if no session was tested with a clock behind its last packet, none left and
  none was superseded before its time.

Two facts follow for a clock that does not step back: at most one session of a key is not stale
(`Reach.apart`), and packets of different keys get a session each (`Reach.singletons`).
-/

namespace SessionWindow

variable {α κ τ : Type}

/-! ## Sessions -/

/-- The packets of a session, the oldest first. -/
structure Session (α : Type) where
  first : α
  later : List α

namespace Session

/-- A session of one packet. -/
def start (a : α) : Session α :=
  ⟨a, []⟩

/-- The next packet of a session. -/
def add (S : Session α) (a : α) : Session α :=
  ⟨S.first, S.later ++ [a]⟩

def packets (S : Session α) : List α :=
  S.first :: S.later

def latest (S : Session α) : α :=
  S.later.getLast?.getD S.first

@[simp] lemma first_start (a : α) : (start a).first = a := rfl

@[simp] lemma first_add (S : Session α) (a : α) : (S.add a).first = S.first := rfl

@[simp] lemma latest_start (a : α) : (start a).latest = a := rfl

@[simp] lemma latest_add (S : Session α) (a : α) : (S.add a).latest = a := by
  simp [latest, add]

@[simp] lemma packets_start (a : α) : (start a).packets = [a] := rfl

@[simp] lemma packets_add (S : Session α) (a : α) : (S.add a).packets = S.packets ++ [a] := rfl

/-- The latest packet stands at the end. -/
lemma packets_eq_concat (S : Session α) : ∃ g, S.packets = g ++ [S.latest] := by
  rcases List.eq_nil_or_concat S.later with h | ⟨g, a, h⟩
  · exact ⟨[], by rw [packets, latest, h]; rfl⟩
  · refine ⟨S.first :: g, ?_⟩
    rw [packets, latest, h]
    simp

end Session

/-! ## The store -/

/-- What an observer of the store notes down. -/
inductive Note (τ : Type) where
  /-- A session with last packet at `last` was tested for staleness. -/
  | tested (last now : τ)
  /-- A session with last packet at `last` left the store. -/
  | left (last now : τ)
  /-- A session was opened beside sessions of the same key with last packets at `others`. -/
  | opened (now : τ) (others : List τ)
deriving DecidableEq

/-- The store: open sessions, most recently used first, and finished ones in the order they left. -/
structure Flows (α τ : Type) where
  live : List (Session α)
  out : List (Session α)
  now : τ
  times : List τ
  arrivals : List α
  notes : List (Note τ)
  intact : Bool

/-- All sessions, in the order of their last use. -/
def Flows.chain (a : Flows α τ) : List (Session α) :=
  a.out ++ a.live.reverse

namespace Flows

variable (a : Flows α τ)

lemma chain_start (p : α) (arr : List α) (notes : List (Note τ)) :
    chain { a with live := .start p :: a.live, arrivals := arr, notes := notes }
      = a.chain ++ [.start p] := by
  simp [chain]

lemma chain_merge (A B : List (Session α)) (S : Session α) (arr : List α)
    (notes : List (Note τ)) :
    chain { a with live := S :: (A ++ B), arrivals := arr, notes := notes }
      = (a.out ++ B.reverse) ++ A.reverse ++ [S] := by
  simp [chain]

variable {a}

lemma chain_expire {L : List (Session α)} {S : Session α} (h : a.live = L ++ [S])
    (notes : List (Note τ)) :
    chain { a with live := L, out := a.out ++ [S], notes := notes } = a.chain := by
  simp [chain, h]

lemma chain_split {A B : List (Session α)} {S : Session α} (h : a.live = A ++ S :: B) :
    a.chain = (a.out ++ B.reverse) ++ S :: A.reverse := by
  simp [chain, h]

end Flows

/-- What the store knows of packets. -/
structure Rules (α κ τ : Type) where
  key : α → κ
  time : α → τ
  stale : τ → τ → Prop

namespace Rules

variable (R : Rules α κ τ)

/-- The time of the last packet of a session. -/
def last (S : Session α) : τ :=
  R.time S.latest

lemma last_start (p : α) : R.last (.start p) = R.time p := rfl

lemma last_add (S : Session α) (p : α) : R.last (S.add p) = R.time p := by
  rw [last, Session.latest_add]

variable [DecidableEq κ]

/-- The sessions of a key in a list. -/
def ofKey (k : κ) (l : List (Session α)) : List (Session α) :=
  l.filter fun S => R.key S.first = k

/-- The steps of the store. -/
inductive Step (a : Flows α τ) : Flows α τ → Prop where
  | tick (t : τ) : Step a { a with now := t, times := a.times ++ [t] }
  | wipe (n : ℕ) : Step a { a with
      live := [], out := a.out.take n,
      intact := a.intact && (a.chain.isEmpty && a.arrivals.isEmpty) }
  | test {S : Session α} (hmem : S ∈ a.live) :
      Step a { a with notes := a.notes ++ [.tested (R.last S) a.now] }
  | expire {L : List (Session α)} {S : Session α} (hlive : a.live = L ++ [S])
      (hstale : R.stale (R.last S) a.now) :
      Step a { a with
        live := L, out := a.out ++ [S],
        notes := a.notes ++ [.tested (R.last S) a.now, .left (R.last S) a.now] }
  | start {p : α} (hnow : a.now ∈ a.times) (htime : R.time p = a.now)
      (hfound : ∀ S, a.live.find? (fun S => R.key S.first = R.key p) = some S →
        R.stale (R.last S) a.now ∧ Note.tested (R.last S) a.now ∈ a.notes) :
      Step a { a with
        live := .start p :: a.live, arrivals := a.arrivals ++ [p],
        notes := a.notes ++ [.opened a.now ((R.ofKey (R.key p) a.live).map R.last)] }
  | merge {p : α} {A B : List (Session α)} {S : Session α} (hnow : a.now ∈ a.times)
      (htime : R.time p = a.now) (hlive : a.live = A ++ S :: B)
      (hbefore : ∀ T ∈ A, R.key T.first ≠ R.key p) (hkey : R.key S.first = R.key p)
      (hfresh : ¬ R.stale (R.last S) a.now) :
      Step a { a with
        live := S.add p :: (A ++ B), arrivals := a.arrivals ++ [p],
        notes := a.notes ++ [.tested (R.last S) a.now] }
  | drop (p : α) : Step a { a with arrivals := a.arrivals ++ [p], intact := false }

/-- The empty store. -/
def empty (t : τ) : Flows α τ where
  live := []
  out := []
  now := t
  times := []
  arrivals := []
  notes := []
  intact := true

/-- The states a store gets into. -/
def Reach (t : τ) (a : Flows α τ) : Prop :=
  Relation.ReflTransGen R.Step (Rules.empty t) a

variable {R} {t : τ} {a : Flows α τ}

/-- The induction every invariant of the store goes by. -/
lemma Reach.invariant {I : Flows α τ → Prop} (h0 : I (Rules.empty t))
    (hstep : ∀ a b, I a → R.Step a b → I b) (h : R.Reach t a) : I a := by
  induction h with
  | refl => exact h0
  | tail _ hs ih => exact hstep _ _ ih hs

/-- The last packet of an open session came at some time of the clock. -/
lemma Reach.last_mem_times (h : R.Reach t a) : ∀ S ∈ a.live, R.last S ∈ a.times := by
  refine Reach.invariant (I := fun a => ∀ S ∈ a.live, R.last S ∈ a.times) ?_ ?_ h
  · exact fun S hS => absurd hS List.not_mem_nil
  · intro a b ih hstep
    cases hstep with
    | tick t => exact fun S hS => List.mem_append_left _ (ih S hS)
    | wipe n => exact fun S hS => absurd hS List.not_mem_nil
    | test _ => exact ih
    | expire hlive _ =>
        intro S hS
        refine ih S ?_
        rw [hlive]
        exact List.mem_append_left _ hS
    | start hnow htime _ =>
        intro S hS
        rcases List.mem_cons.mp hS with rfl | hS
        · rw [last_start, htime]
          exact hnow
        · exact ih S hS
    | merge hnow htime hlive _ _ _ =>
        intro S hS
        rcases List.mem_cons.mp hS with rfl | hS
        · rw [last_add, htime]
          exact hnow
        · refine ih S ?_
          rw [hlive]
          simp only [List.mem_append, List.mem_cons] at hS ⊢
          exact hS.imp id Or.inr
    | drop p => exact ih

/-! ## Order of leaving -/

section Order

variable [Preorder τ]

/-- The clock does not step back. -/
def Steady (a : Flows α τ) : Prop :=
  a.times.Pairwise (· ≤ ·)

/-- Sessions stand in the order of their last packets, none of them ahead of the clock. -/
structure InOrder (R : Rules α κ τ) (a : Flows α τ) : Prop where
  sorted : a.chain.Pairwise fun S T => R.last S ≤ R.last T
  past : ∀ S ∈ a.chain, R.last S ≤ a.now
  started : a.now ∈ a.times ∨ a.chain = []

omit [DecidableEq κ] in
/-- Appending the session that was just used keeps the order. -/
lemma InOrder.concat {a b : Flows α τ} (h : InOrder R a) {l : List (Session α)} {S : Session α}
    (hsub : l.Sublist a.chain) (hchain : b.chain = l ++ [S]) (hS : R.last S = a.now)
    (hnow : b.now = a.now) (htimes : a.now ∈ b.times) : InOrder R b := by
  have hl : ∀ T ∈ l, R.last T ≤ a.now := fun T hT => h.past T (hsub.subset hT)
  refine ⟨?_, ?_, Or.inl (hnow ▸ htimes)⟩
  · rw [hchain, List.pairwise_append]
    refine ⟨h.sorted.sublist hsub, List.pairwise_singleton _ _, ?_⟩
    intro T hT U hU
    rw [List.mem_singleton.mp hU, hS]
    exact hl T hT
  · intro T hT
    rw [hchain, List.mem_append, List.mem_singleton] at hT
    rw [hnow]
    rcases hT with hT | rfl
    · exact hl T hT
    · exact hS.le

/-- **Sessions leave in time order.** -/
theorem Reach.inOrder (h : R.Reach t a) (hsteady : Steady a) : InOrder R a := by
  refine Reach.invariant (I := fun a => Steady a → InOrder R a) ?_ ?_ h hsteady
  · intro _
    exact ⟨List.Pairwise.nil, fun S hS => absurd hS List.not_mem_nil, Or.inr rfl⟩
  · intro a b ih hstep hb
    cases hstep with
    | tick t =>
        obtain ⟨hs, -, hle⟩ := List.pairwise_append.mp hb
        obtain ⟨hsorted, hpast, hstarted⟩ := ih hs
        refine ⟨hsorted, fun S hS => ?_, Or.inl (by simp)⟩
        rcases hstarted with hmem | hnil
        · exact (hpast S hS).trans (hle _ hmem _ (List.mem_singleton.mpr rfl))
        · exact absurd (hnil ▸ hS : S ∈ ([] : List (Session α))) List.not_mem_nil
    | wipe n =>
        obtain ⟨hsorted, hpast, hstarted⟩ := ih hb
        have hsub : (a.out.take n ++ ([] : List (Session α)).reverse).Sublist a.chain :=
          (List.take_sublist n a.out).append (List.nil_sublist _)
        refine ⟨hsorted.sublist hsub, fun S hS => hpast S (hsub.subset hS), ?_⟩
        rcases hstarted with hmem | hnil
        · exact Or.inl hmem
        · rw [hnil] at hsub
          exact Or.inr (List.sublist_nil.mp hsub)
    | test _ =>
        obtain ⟨hsorted, hpast, hstarted⟩ := ih hb
        exact ⟨hsorted, hpast, hstarted⟩
    | expire hlive _ =>
        obtain ⟨hsorted, hpast, hstarted⟩ := ih hb
        rw [← Flows.chain_expire hlive (a.notes ++ _)] at hsorted hpast hstarted
        exact ⟨hsorted, hpast, hstarted⟩
    | start hnow htime _ =>
        exact (ih hb).concat (List.Sublist.refl _) (Flows.chain_start ..) htime rfl hnow
    | @merge p A B S hnow htime hlive _ _ _ =>
        refine (ih hb).concat ?_ (Flows.chain_merge ..) ?_ rfl hnow
        · rw [Flows.chain_split hlive]
          exact (List.Sublist.refl _).append (List.sublist_cons_self _ _)
        · rw [last_add]
          exact htime
    | drop p =>
        obtain ⟨hsorted, hpast, hstarted⟩ := ih hb
        exact ⟨hsorted, hpast, hstarted⟩

/-! ## Sessions are the segments of their key -/

/-- Staleness is kept by waiting. -/
def Waits (R : Rules α κ τ) : Prop :=
  ∀ ⦃l m n : τ⦄, l ≤ m → m ≤ n → R.stale l m → R.stale l n

/-- `near` says of two packets in order that the second is not stale after the first. -/
def Decides (R : Rules α κ τ) (near : α → α → Bool) : Prop :=
  ∀ ⦃p q : α⦄, R.time p ≤ R.time q → (near p q = true ↔ ¬ R.stale (R.time p) (R.time q))

/-- The sessions of every key are its packets cut at the gaps, and finished ones stay stale. -/
structure Segmented (R : Rules α κ τ) (near : α → α → Bool) (a : Flows α τ) : Prop where
  gone : ∀ S ∈ a.out, R.stale (R.last S) a.now
  cut : ∀ k, (R.ofKey k a.chain).map Session.packets
    = (a.arrivals.filter fun p => R.key p = k).splitBy near

omit [Preorder τ] in
lemma ofKey_append (k : κ) (l m : List (Session α)) :
    R.ofKey k (l ++ m) = R.ofKey k l ++ R.ofKey k m :=
  List.filter_append ..

omit [Preorder τ] in
lemma ofKey_singleton_of_eq {k : κ} {S : Session α} (h : R.key S.first = k) :
    R.ofKey k [S] = [S] := by
  simp [ofKey, h]

omit [Preorder τ] in
lemma ofKey_singleton_of_ne {k : κ} {S : Session α} (h : R.key S.first ≠ k) :
    R.ofKey k [S] = [] := by
  simp [ofKey, h]

omit [Preorder τ] in
lemma ofKey_eq_nil {k : κ} {l : List (Session α)} (h : ∀ S ∈ l, R.key S.first ≠ k) :
    R.ofKey k l = [] := by
  simpa [ofKey] using h

omit [Preorder τ] in
/-- The last packet of a key is the latest one of its last session. -/
lemma getLast?_of_cut {near : α → α → Bool} {l : List α} {X : List (Session α)} {S : Session α}
    (h : (X ++ [S]).map Session.packets = l.splitBy near) : l.getLast? = some S.latest := by
  obtain ⟨g, hg⟩ := S.packets_eq_concat
  have hflat := List.flatten_splitBy near l
  rw [← h] at hflat
  rw [← hflat]
  simp [hg, ← List.append_assoc]

/-- A session opened for `p` begins a new segment. -/
lemma Segmented.start_cut {near : α → α → Bool} (hdec : R.Decides near) (hord : InOrder R a)
    (h : Segmented R near a) {p : α} (htime : R.time p = a.now)
    (hfound : ∀ S, a.live.find? (fun S => R.key S.first = R.key p) = some S →
      R.stale (R.last S) a.now) :
    ∀ x ∈ (a.arrivals.filter fun q => R.key q = R.key p).getLast?, near x p = false := by
  have hcut := h.cut (R.key p)
  rcases List.eq_nil_or_concat (R.ofKey (R.key p) a.chain) with hnil | ⟨X, S, hX⟩
  · rw [hnil, List.map_nil, eq_comm, List.splitBy_eq_nil] at hcut
    simp [hcut]
  · rw [List.concat_eq_append] at hX
    rw [hX] at hcut
    intro x hx
    rw [getLast?_of_cut hcut, Option.mem_some_iff] at hx
    subst hx
    have hmem : S ∈ R.ofKey (R.key p) a.chain := by
      rw [hX]
      exact List.mem_append_right _ (List.mem_singleton.mpr rfl)
    have hpast := hord.past S (List.mem_filter.mp hmem).1
    -- the last session of the key is the one the lookup finds, unless it has left
    have hstale : R.stale (R.last S) a.now := by
      rw [Flows.chain, ofKey_append] at hX
      have hrev : R.ofKey (R.key p) a.live.reverse = (R.ofKey (R.key p) a.live).reverse := by
        rw [ofKey, ofKey, List.filter_reverse]
      cases hlive : R.ofKey (R.key p) a.live with
      | nil =>
          rw [hrev, hlive, List.reverse_nil, List.append_nil] at hX
          have hout : S ∈ R.ofKey (R.key p) a.out := by
            rw [hX]
            exact List.mem_append_right _ (List.mem_singleton.mpr rfl)
          exact h.gone S (List.mem_filter.mp hout).1
      | cons T Y =>
          rw [hrev, hlive, List.reverse_cons, ← List.append_assoc] at hX
          have hT : T = S := by simpa using (List.append_inj' hX rfl).2
          refine hfound S ?_
          rw [← hT, ← List.head?_filter]
          show (R.ofKey (R.key p) a.live).head? = some T
          rw [hlive, List.head?_cons]
    have hle : R.time S.latest ≤ R.time p := htime ▸ hpast
    have hiff := hdec hle
    rw [htime] at hiff
    cases hn : near S.latest p with
    | false => rfl
    | true => exact absurd hstale (hiff.mp hn)

/-- **Sessions are segments.**  With a steady clock and nothing lost, the sessions of every key, in
order, are its packets cut wherever `near` fails between neighbours. -/
theorem Reach.segments {near : α → α → Bool} (hdec : R.Decides near) (hwait : R.Waits)
    (h : R.Reach t a) (hsteady : Steady a) (hintact : a.intact = true) : Segmented R near a := by
  have hboth : Steady a → a.intact = true → InOrder R a ∧ Segmented R near a := by
    refine Reach.invariant
      (I := fun a => R.Reach t a ∧ (Steady a → a.intact = true → InOrder R a ∧ Segmented R near a))
      ?_ ?_ h |>.2
    · refine ⟨Relation.ReflTransGen.refl, fun _ _ => ⟨?_, ?_, ?_⟩⟩
      · exact ⟨List.Pairwise.nil, fun S hS => absurd hS List.not_mem_nil, Or.inr rfl⟩
      · exact fun S hS => absurd hS List.not_mem_nil
      · intro k
        rfl
    · rintro a b ⟨hreach, ih⟩ hstep
      have hreach' : R.Reach t b := hreach.tail hstep
      refine ⟨hreach', fun hb hi => ⟨Reach.inOrder hreach' hb, ?_⟩⟩
      cases hstep with
      | tick t =>
          obtain ⟨hs, -, hle⟩ := List.pairwise_append.mp hb
          obtain ⟨hord, hgone, hcut⟩ := ih hs hi
          refine ⟨fun S hS => ?_, hcut⟩
          have hmem : S ∈ a.chain := List.mem_append_left _ hS
          rcases hord.started with hnow | hnil
          · exact hwait (hord.past S hmem) (hle _ hnow _ (List.mem_singleton.mpr rfl)) (hgone S hS)
          · rw [hnil] at hmem
            exact absurd hmem List.not_mem_nil
      | wipe n =>
          simp only [Bool.and_eq_true, List.isEmpty_iff] at hi
          obtain ⟨hi, hchain, harr⟩ := hi
          have hout : a.out = [] := (List.append_eq_nil_iff.mp hchain).1
          refine ⟨fun S hS => ?_, fun k => ?_⟩
          · simp [hout] at hS
          · simp [Flows.chain, hout, harr, ofKey]
      | test _ =>
          obtain ⟨-, hgone, hcut⟩ := ih hb hi
          exact ⟨hgone, hcut⟩
      | @expire L S hlive hstale =>
          obtain ⟨-, hgone, hcut⟩ := ih hb hi
          refine ⟨fun T hT => ?_, fun k => ?_⟩
          · rw [List.mem_append, List.mem_singleton] at hT
            rcases hT with hT | rfl
            · exact hgone T hT
            · exact hstale
          · rw [Flows.chain_expire hlive]
            exact hcut k
      | @start p hnow htime hfound =>
          obtain ⟨hord, hseg⟩ := ih hb hi
          refine ⟨hseg.gone, fun k => ?_⟩
          rw [Flows.chain_start, ofKey_append, List.filter_append, List.map_append, hseg.cut k]
          by_cases hk : R.key p = k
          · subst hk
            have hone : R.ofKey (R.key p) [.start p] = [.start p] := ofKey_singleton_of_eq rfl
            have hlast := hseg.start_cut hdec hord htime fun S hS => (hfound S hS).1
            simp only [hone, List.filter_cons, decide_true, if_true, List.filter_nil]
            rw [List.splitBy_append_cons [] hlast]
            rfl
          · rw [ofKey_singleton_of_ne (S := .start p) hk]
            simp [hk]
      | @merge p A B S hnow htime hlive hbefore hkey hfresh =>
          obtain ⟨hord, hseg⟩ := ih hb hi
          refine ⟨hseg.gone, fun k => ?_⟩
          have hcut := hseg.cut k
          have hchain : R.ofKey k a.chain
              = R.ofKey k (a.out ++ B.reverse) ++ (R.ofKey k [S] ++ R.ofKey k A.reverse) := by
            rw [Flows.chain_split hlive, ofKey_append, ← ofKey_append _ [S], List.singleton_append]
          rw [hchain] at hcut
          rw [Flows.chain_merge, ofKey_append, ofKey_append _ _ A.reverse, List.filter_append]
          by_cases hk : R.key p = k
          · subst hk
            have hA : R.ofKey (R.key p) A.reverse = [] :=
              ofKey_eq_nil fun T hT => hbefore T (List.mem_reverse.mp hT)
            obtain ⟨g, hg⟩ := S.packets_eq_concat
            have hnear : near S.latest p = true := by
              have hle : R.time S.latest ≤ R.time p := by
                rw [htime]
                refine hord.past S ?_
                rw [Flows.chain_split hlive]
                exact List.mem_append_right _ (List.mem_cons_self ..)
              refine (hdec hle).mpr ?_
              rw [htime]
              exact hfresh
            rw [hA, ofKey_singleton_of_eq hkey, List.append_nil, List.map_append, List.map_cons,
              List.map_nil, hg] at hcut
            rw [hA, ofKey_singleton_of_eq (S := S.add p) hkey, List.append_nil, List.map_append,
              List.map_cons, List.map_nil, Session.packets_add, hg]
            simp only [List.filter_cons, decide_true, if_true, List.filter_nil]
            exact (ListGroups.splitBy_concat_of_near hcut.symm hnear).symm
          · have hS : R.key S.first ≠ k := fun h => hk (hkey.symm.trans h)
            rw [ofKey_singleton_of_ne hS, List.nil_append] at hcut
            rw [ofKey_singleton_of_ne (S := S.add p) hS, List.append_nil, hcut]
            simp [hk]
      | drop p => exact absurd hi (by simp)
  exact (hboth hsteady hintact).2

end Order

/-! ## Every packet is in one session -/

/-- **No packet is lost or counted twice**, whatever the clock does. -/
theorem Reach.packets_perm (h : R.Reach t a) (hintact : a.intact = true) :
    (a.chain.flatMap Session.packets).Perm a.arrivals := by
  refine Reach.invariant
    (I := fun a => a.intact = true → (a.chain.flatMap Session.packets).Perm a.arrivals) ?_ ?_ h
    hintact
  · intro _
    exact List.Perm.refl _
  · intro a b ih hstep hi
    cases hstep with
    | tick t => exact ih hi
    | wipe n =>
        simp only [Bool.and_eq_true, List.isEmpty_iff] at hi
        obtain ⟨hi, hchain, harr⟩ := hi
        have hout : a.out = [] := (List.append_eq_nil_iff.mp hchain).1
        simp [Flows.chain, hout, harr]
    | test _ => exact ih hi
    | expire hlive _ =>
        rw [Flows.chain_expire hlive]
        exact ih hi
    | start _ _ _ =>
        rw [Flows.chain_start, List.flatMap_append]
        exact (ih hi).append (List.Perm.refl _)
    | @merge p A B S _ _ hlive _ _ _ =>
        have hperm := ih hi
        rw [Flows.chain_split hlive] at hperm
        rw [Flows.chain_merge]
        have hmove : ((a.out ++ B.reverse) ++ A.reverse ++ [S.add p]).flatMap Session.packets
            = ((a.out ++ B.reverse) ++ A.reverse ++ [S]).flatMap Session.packets ++ [p] := by
          simp only [List.flatMap_append, List.flatMap_cons, List.flatMap_nil, Session.packets_add,
            List.append_nil, List.append_assoc]
        rw [hmove]
        refine List.Perm.append (List.Perm.trans (List.Perm.flatMap_right _ ?_) hperm)
          (List.Perm.refl _)
        rw [List.append_assoc]
        exact (List.perm_append_singleton S A.reverse).append_left _
    | drop p => exact absurd hi (by simp)

/-- **Packets of different keys get a session each.** -/
theorem Reach.singletons [Preorder τ] {near : α → α → Bool} (hdec : R.Decides near) (hwait : R.Waits)
    (h : R.Reach t a) (hsteady : Steady a) (hintact : a.intact = true)
    (hkeys : (a.arrivals.map R.key).Nodup) :
    (∀ S ∈ a.chain, S = .start S.first ∧ S.first ∈ a.arrivals)
      ∧ (∀ q ∈ a.arrivals, .start q ∈ a.chain) ∧ a.chain.length = a.arrivals.length := by
  have hcut := (h.segments hdec hwait hsteady hintact).cut
  have hperm := h.packets_perm hintact
  have hsegment : ∀ q ∈ a.arrivals, (R.ofKey (R.key q) a.chain).map Session.packets = [[q]] := by
    intro q hq
    rw [hcut, ListGroups.filter_eq_singleton hkeys hq]
    rfl
  have hall : ∀ S ∈ a.chain, S = .start S.first ∧ S.first ∈ a.arrivals := by
    intro S hS
    have hmem : S.first ∈ a.arrivals :=
      hperm.mem_iff.mp (List.mem_flatMap.mpr ⟨S, hS, List.mem_cons_self ..⟩)
    have hpackets : S.packets ∈ (R.ofKey (R.key S.first) a.chain).map Session.packets :=
      List.mem_map_of_mem (List.mem_filter.mpr ⟨hS, by simp⟩)
    rw [hsegment _ hmem, List.mem_singleton, Session.packets, List.cons.injEq] at hpackets
    exact ⟨congrArg (Session.mk S.first) hpackets.2, hmem⟩
  refine ⟨hall, fun q hq => ?_, ?_⟩
  · have hone : [q] ∈ (R.ofKey (R.key q) a.chain).map Session.packets := by
      rw [hsegment q hq]
      exact List.mem_singleton_self _
    obtain ⟨S, hS, hpackets⟩ := List.mem_map.mp hone
    have hchain : S ∈ a.chain := (List.mem_filter.mp hS).1
    have hfirst : S.first = q := congrArg (fun l => l.headD q) hpackets
    rw [← hfirst, ← (hall S hchain).1]
    exact hchain
  · rw [← hperm.length_eq, List.length_flatMap,
      List.map_congr_left (g := fun _ => 1) fun S hS => by rw [(hall S hS).1]; rfl]
    simp

/-! ## Nothing happens early -/

section Early

variable [Preorder τ]

/-- The clock was never behind the session it was compared with. -/
def Forward (a : Flows α τ) : Prop :=
  ∀ l n, Note.tested l n ∈ a.notes → l ≤ n

/-- `n` is later than `l`, by more than the timeout. -/
def Late (R : Rules α κ τ) (l n : τ) : Prop :=
  l ≤ n ∧ R.stale l n

/-- Nothing left and nothing was superseded too early, and in the store too the older sessions of a
key are late before the newer ones. -/
structure NoneEarly (R : Rules α κ τ) (a : Flows α τ) : Prop where
  left : ∀ l n, Note.left l n ∈ a.notes → R.Late l n
  opened : ∀ n others, Note.opened n others ∈ a.notes → ∀ l ∈ others, R.Late l n
  apart : a.live.Pairwise fun S T =>
    R.key S.first = R.key T.first → R.Late (R.last T) (R.last S)

omit [DecidableEq κ] in
lemma Late.trans (hwait : R.Waits) {l m n : τ} (h : R.Late l m) (hmn : m ≤ n) : R.Late l n :=
  ⟨h.1.trans hmn, hwait h.1 hmn h.2⟩

/-- **Nothing happens early**, for every clock that was never behind a tested session. -/
theorem Reach.noneEarly (hwait : R.Waits) (h : R.Reach t a) (hforward : Forward a) :
    NoneEarly R a := by
  refine Reach.invariant (I := fun a => Forward a → NoneEarly R a) ?_ ?_ h hforward
  · intro _
    exact ⟨fun _ _ h => absurd h List.not_mem_nil, fun _ _ h => absurd h List.not_mem_nil,
      List.Pairwise.nil⟩
  · intro a b ih hstep hb
    have hearlier : Forward a := by
      intro l n hmem
      refine hb l n ?_
      cases hstep with
      | tick _ => exact hmem
      | wipe _ => exact hmem
      | test _ => exact List.mem_append_left _ hmem
      | expire _ _ => exact List.mem_append_left _ hmem
      | start _ _ _ => exact List.mem_append_left _ hmem
      | merge _ _ _ _ _ _ => exact List.mem_append_left _ hmem
      | drop _ => exact hmem
    obtain ⟨hleft, hopened, hapart⟩ := ih hearlier
    cases hstep with
    | tick _ => exact ⟨hleft, hopened, hapart⟩
    | wipe _ => exact ⟨hleft, hopened, List.Pairwise.nil⟩
    | test _ => exact ⟨by simpa using hleft, by simpa using hopened, hapart⟩
    | @expire L S hlive hstale =>
        have hle : R.last S ≤ a.now := hb _ _ (by simp)
        refine ⟨fun l n hmem => ?_, by simpa using hopened, ?_⟩
        · rw [List.mem_append] at hmem
          rcases hmem with hmem | hmem
          · exact hleft l n hmem
          · simp only [List.mem_cons, reduceCtorEq, Note.left.injEq, List.not_mem_nil, or_false,
              false_or] at hmem
            rw [hmem.1, hmem.2]
            exact ⟨hle, hstale⟩
        · rw [hlive] at hapart
          exact (List.pairwise_append.mp hapart).1
    | @start p hnow htime hfound =>
        have hlate : ∀ T ∈ R.ofKey (R.key p) a.live, R.Late (R.last T) a.now := by
          intro T hT
          obtain ⟨hTmem, hTkey⟩ := List.mem_filter.mp hT
          obtain ⟨S, hS⟩ : ∃ S, a.live.find? (fun S => R.key S.first = R.key p) = some S :=
            Option.isSome_iff_exists.mp (List.find?_isSome.mpr ⟨T, hTmem, hTkey⟩)
          obtain ⟨hstale, htested⟩ := hfound S hS
          have hlateS : R.Late (R.last S) a.now := ⟨hearlier _ _ htested, hstale⟩
          obtain ⟨hSkey, A, B, hlive, hA⟩ := List.find?_eq_some_iff_append.mp hS
          simp only [decide_eq_true_eq] at hSkey hTkey
          rw [hlive] at hTmem hapart
          rcases List.mem_append.mp hTmem with hTA | hTB
          · exact absurd hTkey (by simpa using hA T hTA)
          · rcases List.mem_cons.mp hTB with rfl | hTB
            · exact hlateS
            · have hpair := List.pairwise_cons.mp (List.pairwise_append.mp hapart).2.1
              exact (hpair.1 T hTB (hSkey.trans hTkey.symm)).trans hwait hlateS.1
        refine ⟨by simpa using hleft, fun n others hmem => ?_, List.pairwise_cons.mpr ⟨?_, hapart⟩⟩
        · rw [List.mem_append, List.mem_singleton] at hmem
          rcases hmem with hmem | hmem
          · exact hopened n others hmem
          · obtain ⟨rfl, rfl⟩ := Note.opened.inj hmem
            intro l hl
            obtain ⟨T, hT, rfl⟩ := List.mem_map.mp hl
            exact hlate T hT
        · intro T hT hkey
          rw [last_start, htime]
          exact hlate T (List.mem_filter.mpr ⟨hT, by simpa using hkey.symm⟩)
    | @merge p A B S hnow htime hlive hbefore hkey hfresh =>
        have hle : R.last S ≤ a.now := hb _ _ (by simp)
        refine ⟨by simpa using hleft, by simpa using hopened, ?_⟩
        rw [hlive] at hapart
        obtain ⟨hpA, hpS, hAB⟩ := List.pairwise_append.mp hapart
        obtain ⟨hSB, hpB⟩ := List.pairwise_cons.mp hpS
        refine List.pairwise_cons.mpr ⟨?_, List.pairwise_append.mpr ⟨hpA, hpB, ?_⟩⟩
        · intro T hT hsame
          rw [Session.first_add] at hsame
          rw [last_add, htime]
          rcases List.mem_append.mp hT with hTA | hTB
          · exact absurd (hsame.symm.trans hkey) (hbefore T hTA)
          · exact (hSB T hTB hsame).trans hwait hle
        · intro T hT U hU
          exact hAB T hT U (List.mem_cons_of_mem _ hU)
    | drop _ => exact ⟨hleft, hopened, hapart⟩

/-- With a steady clock no session is tested with the clock behind its last packet. -/
lemma Reach.forward (h : R.Reach t a) (hsteady : Steady a) : Forward a := by
  refine (Reach.invariant (I := fun a => R.Reach t a ∧ (Steady a → Forward a)) ?_ ?_ h).2 hsteady
  · exact ⟨Relation.ReflTransGen.refl, fun _ _ _ hmem => absurd hmem List.not_mem_nil⟩
  · rintro a b ⟨hreach, ih⟩ hstep
    refine ⟨hreach.tail hstep, fun hb => ?_⟩
    have hpast : Steady a → ∀ S ∈ a.live, R.last S ≤ a.now := fun hs S hS =>
      (Reach.inOrder hreach hs).past S (List.mem_append_right _ (List.mem_reverse.mpr hS))
    cases hstep with
    | tick t => exact ih (List.pairwise_append.mp hb).1
    | wipe n => exact ih hb
    | @test S hmem =>
        intro l n hnote
        rw [List.mem_append, List.mem_singleton] at hnote
        rcases hnote with hnote | hnote
        · exact ih hb l n hnote
        · obtain ⟨rfl, rfl⟩ := Note.tested.inj hnote
          exact hpast hb S hmem
    | @expire L S hlive hstale =>
        intro l n hnote
        simp only [List.mem_append, List.mem_cons, Note.tested.injEq, reduceCtorEq, List.not_mem_nil,
          or_false] at hnote
        rcases hnote with hnote | ⟨rfl, rfl⟩
        · exact ih hb l n hnote
        · exact hpast hb S (by simp [hlive])
    | start hnow htime hfound => exact fun l n hnote => ih hb l n (by simpa using hnote)
    | @merge p A B S hnow htime hlive hbefore hkey hfresh =>
        intro l n hnote
        rw [List.mem_append, List.mem_singleton] at hnote
        rcases hnote with hnote | hnote
        · exact ih hb l n hnote
        · obtain ⟨rfl, rfl⟩ := Note.tested.inj hnote
          exact hpast hb S (by simp [hlive])
    | drop p => exact ih hb

/-- **At most one session of a key is not stale**, and it stands before the others. -/
theorem Reach.apart (hwait : R.Waits) (h : R.Reach t a) (hsteady : Steady a) :
    a.live.Pairwise fun S T => R.key S.first = R.key T.first → R.stale (R.last T) a.now := by
  have hpast := (Reach.inOrder h hsteady).past
  refine (Reach.noneEarly hwait h (h.forward hsteady)).apart.imp_of_mem fun {S T} hS _ hlate hkey => ?_
  have hlate := hlate hkey
  exact hwait hlate.1 (hpast S (List.mem_append_right _ (List.mem_reverse.mpr hS))) hlate.2

end Early

end Rules

end SessionWindow
