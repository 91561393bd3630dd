import Mathlib.Algebra.Group.Pi.Basic
import Mathlib.Algebra.Order.Pi
import Mathlib.Algebra.Order.Ring.Int
import Mathlib.Tactic.Abel

/-!
# Keeping account of resources

A routine acquires resources from a system that may refuse any call, and gives resources back.  The
account says how often each resource is held: an acquisition adds one, a release takes one away, whether
the resource was held or not.  So a leak and a double release both show, and the effect of a routine is a
difference that does not depend on what else is held.

`Brings n m Q` is a routine's specification: run in any process whose names are used up to `n`, with any
answers of the system, `m` changes the account by some `δ` and makes some notes, and `Q` holds of its
result, of `δ`, of the notes and of the bound for the names used after it.  `Brings.bind` adds the effects
of one routine and the next.  An acquisition brings a name nobody has used, so that no routine makes
anything be held twice (`Single`).
-/

namespace Ledger

/-- What the system says to a call. -/
inductive Reply where
  | ok (value : ℕ)
  /-- The call is refused, with this number and one for `errno`. -/
  | error (code : ℕ)
deriving DecidableEq, Repr

/-- Resources have names. -/
class Named (ρ : Type) where
  name : ρ → ℕ

/-- A process, the account of what it holds, the answers it will get, and notes nothing depends on.  Once
there are no answers left every call is granted. -/
structure Process (ρ ν : Type) where
  account : ρ → ℤ
  replies : List Reply
  errno : ℕ
  fresh : ℕ
  notes : List ν

/-- A routine of the process. -/
def Routine (ρ ν α : Type) : Type :=
  Process ρ ν → α × Process ρ ν

variable {ρ ν α β : Type}

/-- Nothing is held twice, and nothing under a name that has not been used. -/
def Single [Named ρ] (s : Process ρ ν) : Prop :=
  ∀ r, s.account r ≤ if Named.name r < s.fresh then 1 else 0

namespace Routine

/-- Sequential composition. -/
protected def bind (m : Routine ρ ν α) (f : α → Routine ρ ν β) : Routine ρ ν β :=
  fun s => f (m s).1 (m s).2

instance instMonad : Monad (Routine ρ ν) where
  pure a := fun s => (a, s)
  bind := Routine.bind

/-- A call without a lasting effect: the value it returns, or `errno`. -/
def ask : Routine ρ ν (Except ℕ ℕ) := fun s =>
  match s.replies with
  | [] => (.ok 0, s)
  | .ok value :: rest => (.ok value, { s with replies := rest })
  | .error code :: rest => (.error (code + 1), { s with replies := rest, errno := code + 1 })

/-- The value of `errno`. -/
def lastErrno : Routine ρ ν ℕ := fun s => (s.errno, s)

/-- A name that has not been used. -/
def name (mk : ℕ → ρ) [DecidableEq ρ] : Routine ρ ν ℕ := fun s =>
  (s.fresh, { s with account := s.account + Pi.single (mk s.fresh) 1, fresh := s.fresh + 1 })

/-- A call that acquires a resource. -/
def acquire (mk : ℕ → ρ) [DecidableEq ρ] : Routine ρ ν (Except ℕ ℕ) := do
  match ← ask with
  | .error code => return .error code
  | .ok _ =>
      let n ← name mk
      return .ok n

/-- Giving a resource back. -/
def release (r : ρ) [DecidableEq ρ] : Routine ρ ν Unit := fun s =>
  ((), { s with account := s.account - Pi.single r 1 })

/-- Something an observer notes down. -/
def note (v : ν) : Routine ρ ν Unit := fun s =>
  ((), { s with notes := s.notes ++ [v] })

end Routine

variable [Named ρ]

/-- What a routine brings about. -/
def Brings (n : ℕ) (m : Routine ρ ν α) (Q : α → (ρ → ℤ) → List ν → ℕ → Prop) : Prop :=
  ∀ s : Process ρ ν, n ≤ s.fresh → ∃ δ notes, (m s).2.account = s.account + δ
    ∧ (m s).2.notes = s.notes ++ notes ∧ s.fresh ≤ (m s).2.fresh ∧ (Single s → Single (m s).2)
    ∧ Q (m s).1 δ notes (m s).2.fresh

namespace Brings

open Routine

variable {n : ℕ} {Q Q' : α → (ρ → ℤ) → List ν → ℕ → Prop} {R : β → (ρ → ℤ) → List ν → ℕ → Prop}

/-- **Returning.** -/
lemma pure {a : α} (h : ∀ f, n ≤ f → Q a 0 [] f) : Brings n (Pure.pure a : Routine ρ ν α) Q :=
  fun s hs => ⟨0, [], (add_zero _).symm, (List.append_nil _).symm, le_rfl, id, h s.fresh hs⟩

/-- **Sequencing.**  The effects add up. -/
lemma bind {m : Routine ρ ν α} {g : α → Routine ρ ν β} (h : Brings n m Q)
    (hg : ∀ a δ notes f, n ≤ f → Q a δ notes f →
      Brings f (g a) fun b δ' notes' f' => R b (δ + δ') (notes ++ notes') f') :
    Brings n (m >>= g) R := by
  intro s hs
  obtain ⟨δ, notes, haccount, hnotes, hfresh, hsingle, hQ⟩ := h s hs
  obtain ⟨δ', notes', haccount', hnotes', hfresh', hsingle', hR⟩ :=
    hg _ _ _ _ (hs.trans hfresh) hQ (m s).2 le_rfl
  refine ⟨δ + δ', notes ++ notes', ?_, ?_, hfresh.trans hfresh', hsingle' ∘ hsingle, hR⟩
  · show (g (m s).1 (m s).2).2.account = _
    rw [haccount', haccount, add_assoc]
  · show (g (m s).1 (m s).2).2.notes = _
    rw [hnotes', hnotes, List.append_assoc]

lemma pure_bind {a : α} {g : α → Routine ρ ν β} (h : Brings n (g a) R) :
    Brings n ((Pure.pure a : Routine ρ ν α) >>= g) R :=
  h

/-- **Weakening.** -/
lemma imp {m : Routine ρ ν α} (h : Brings n m Q) (hQ : ∀ a δ notes f, n ≤ f → Q a δ notes f →
    Q' a δ notes f) : Brings n m Q' := by
  intro s hs
  obtain ⟨δ, notes, haccount, hnotes, hfresh, hsingle, hq⟩ := h s hs
  exact ⟨δ, notes, haccount, hnotes, hfresh, hsingle, hQ _ _ _ _ (hs.trans hfresh) hq⟩

lemma single_congr {s t : Process ρ ν} (haccount : t.account = s.account) (hfresh : t.fresh = s.fresh) :
    Single s ↔ Single t := by
  rw [Single, Single, haccount, hfresh]

section Calls

variable {g : Except ℕ ℕ → Routine ρ ν β}

omit [Named ρ] in
/-- A call has one of two outcomes and changes nothing. -/
lemma ask_cases (s : Process ρ ν) : ∃ r t, Routine.ask s = (r, t) ∧ t.account = s.account
    ∧ t.notes = s.notes ∧ t.fresh = s.fresh ∧ ∀ code, r = .error code → code ≠ 0 := by
  unfold Routine.ask
  split
  · exact ⟨_, _, rfl, rfl, rfl, rfl, by simp⟩
  · exact ⟨_, _, rfl, rfl, rfl, rfl, by simp⟩
  · exact ⟨_, _, rfl, rfl, rfl, rfl, by simp⟩

/-- **A call** without a lasting effect. -/
lemma ask (herror : ∀ code, code ≠ 0 → Brings n (g (.error code)) R)
    (hok : ∀ value, Brings n (g (.ok value)) R) : Brings n (Routine.ask >>= g) R := by
  intro s hs
  obtain ⟨r, t, heq, haccount, hnotes, hfresh, hcode⟩ := ask_cases s
  have hrun : (Routine.ask >>= g) s = g r t := by
    show g (Routine.ask s).1 (Routine.ask s).2 = _
    rw [heq]
  rw [hrun, ← haccount, ← hnotes, ← hfresh, single_congr haccount hfresh]
  cases r with
  | error code => exact herror code (hcode code rfl) t (hfresh ▸ hs)
  | ok value => exact hok value t (hfresh ▸ hs)

/-- Of a name that has not been used there is one resource afterwards. -/
lemma single_name [DecidableEq ρ] {mk : ℕ → ρ} {s : Process ρ ν} (hmk : ∀ k, Named.name (mk k) = k)
    (hs : Single s) : Single (Routine.name mk s).2 := by
  intro r
  have hr := hs r
  show s.account r + Pi.single (M := fun _ => ℤ) (mk s.fresh) 1 r ≤ if Named.name r < s.fresh + 1 then 1 else 0
  by_cases hnew : r = mk s.fresh
  · subst hnew
    rw [hmk, if_neg (lt_irrefl _)] at hr
    rw [hmk, if_pos (Nat.lt_succ_self _), Pi.single_eq_same]
    omega
  · rw [Pi.single_eq_of_ne hnew]
    split_ifs at hr ⊢ <;> omega

/-- **Acquiring a resource**: if it is granted, under a name that has not been used. -/
lemma acquire [DecidableEq ρ] {mk : ℕ → ρ} (herror : ∀ code, code ≠ 0 → Brings n (g (.error code)) R)
    (hok : ∀ k f, n ≤ k → k < f → Brings f (g (.ok k))
      fun b δ notes f' => R b (Pi.single (mk k) 1 + δ) notes f')
    (hmk : ∀ k, Named.name (mk k) = k := by exact fun _ => rfl) :
    Brings n (Routine.acquire mk >>= g) R := by
  refine ask (g := fun r => (match r with
    | .error code => Pure.pure (.error code)
    | .ok _ => Routine.name mk >>= fun k => Pure.pure (.ok k)) >>= g) herror fun _ s hs => ?_
  obtain ⟨δ, notes, haccount, hnotes, hfresh, hsingle, hR⟩ :=
    hok s.fresh (s.fresh + 1) hs (Nat.lt_succ_self _) (Routine.name mk s).2 le_rfl
  exact ⟨_, notes, haccount.trans (add_assoc _ _ _), hnotes, (Nat.le_succ _).trans hfresh,
    hsingle ∘ single_name hmk, hR⟩

end Calls

section Sections

variable {g : Unit → Routine ρ ν β}

lemma single_release [DecidableEq ρ] {r : ρ} {s : Process ρ ν} (hs : Single s) :
    Single (Routine.release r s).2 := by
  intro r'
  refine le_trans ?_ (hs r')
  show s.account r' - Pi.single (M := fun _ => ℤ) r 1 r' ≤ s.account r'
  exact sub_le_self _ ((Pi.single_nonneg (α := fun _ => ℤ)).mpr zero_le_one r')

/-- **Releasing a resource.** -/
lemma release [DecidableEq ρ] {r : ρ}
    (h : Brings n (g ()) fun b δ notes f => R b (-Pi.single r 1 + δ) notes f) :
    Brings n (Routine.release r >>= g) R := by
  intro s hs
  obtain ⟨δ, notes, haccount, hnotes, hfresh, hsingle, hR⟩ := h (Routine.release r s).2 hs
  refine ⟨_, notes, haccount.trans ?_, hnotes, hfresh, hsingle ∘ single_release, hR⟩
  rw [Routine.release, sub_eq_add_neg, add_assoc]

/-- **Noting something down.** -/
lemma note {v : ν} (h : Brings n (g ()) fun b δ notes f => R b δ (v :: notes) f) :
    Brings n (Routine.note v >>= g) R := by
  intro s hs
  obtain ⟨δ, notes, haccount, hnotes, hfresh, hsingle, hR⟩ := h (Routine.note v s).2 hs
  exact ⟨δ, _, haccount, hnotes.trans (List.append_assoc _ _ _), hfresh, hsingle, hR⟩

end Sections

/-- **Looking at `errno`**, of which nothing is known. -/
lemma lastErrno {g : ℕ → Routine ρ ν β} (h : ∀ errno, Brings n (g errno) R) :
    Brings n (Routine.lastErrno >>= g) R :=
  fun s hs => h s.errno s hs

end Brings

end Ledger
