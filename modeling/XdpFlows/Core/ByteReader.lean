import Mathlib.Data.Nat.Notation
import Mathlib.Logic.Basic

/-!
# Programs that read a buffer

A function of a buffer does not say where it looks.  `Reader β α` is the shape of a program that
takes one cell of a buffer after the other and may let every read depend on the earlier ones.
`run` is the function it computes on a buffer and `offsets` the list of the cells it looks at.

`run_congr` is what the offsets are for: two buffers that agree on the cells a program looks at are
the same to it.  `Within` bounds the offsets and comes apart along the program by `simp`.  `Holds`
says what a buffer holds and comes apart along the list.
-/

namespace ByteReader

variable {α β γ : Type}

/-- A program that either has returned or looks at cell `o` and goes on from what it finds. -/
inductive Reader (β α : Type) where
  | ret (a : α) : Reader β α
  | read (o : ℕ) (next : β → Reader β α) : Reader β α

namespace Reader

/-- Sequential composition. -/
protected def bind : Reader β α → (α → Reader β γ) → Reader β γ
  | ret a, f => f a
  | read o k, f => read o fun x => (k x).bind f

instance : Monad (Reader β) where
  pure := ret
  bind := Reader.bind

/-- Looking at one cell. -/
def cell (o : ℕ) : Reader β β :=
  read o ret

/-- The function a program computes on a buffer. -/
def run (b : ℕ → β) : Reader β α → α
  | ret a => a
  | read o k => (k (b o)).run b

/-- The cells a program looks at. -/
def offsets (b : ℕ → β) : Reader β α → List ℕ
  | ret _ => []
  | read o k => o :: (k (b o)).offsets b

variable (b : ℕ → β)

@[simp] lemma run_pure (a : α) : run b (pure a : Reader β α) = a := rfl

@[simp] lemma run_cell (o : ℕ) : run b (cell o) = b o := rfl

@[simp] lemma run_bind (m : Reader β α) (f : α → Reader β γ) :
    run b (m >>= f) = run b (f (run b m)) := by
  induction m with
  | ret a => rfl
  | read o k ih => exact ih (b o)

-- the test may itself come from a read, so its instance is left to unification
lemma run_ite {c : Prop} {_ : Decidable c} (m m' : Reader β α) :
    run b (if c then m else m') = if c then run b m else run b m' :=
  apply_ite ..

lemma offsets_bind (m : Reader β α) (f : α → Reader β γ) :
    offsets b (m >>= f) = offsets b m ++ offsets b (f (run b m)) := by
  induction m with
  | ret a => rfl
  | read o k ih => exact congrArg (o :: ·) (ih (b o))

/-- **A program sees no more of a buffer than the cells it looks at.** -/
theorem run_congr {b c : ℕ → β} {m : Reader β α} (h : ∀ o ∈ offsets b m, c o = b o) :
    run c m = run b m := by
  induction m with
  | ret a => rfl
  | read o k ih =>
      simp only [offsets, List.mem_cons, forall_eq_or_imp] at h
      simp only [run, h.1]
      exact ih (b o) h.2

/-! ## Bounds -/

/-- All reads are below `n`. -/
def Within (n : ℕ) (m : Reader β α) : Prop :=
  ∀ o ∈ offsets b m, o < n

variable {b} {n : ℕ}

@[simp] lemma within_pure (a : α) : Within b n (pure a : Reader β α) :=
  fun _ h => absurd h List.not_mem_nil

@[simp] lemma within_cell (o : ℕ) : Within b n (cell o) ↔ o < n := by
  simp [Within, cell, offsets]

@[simp] lemma within_bind (m : Reader β α) (f : α → Reader β γ) :
    Within b n (m >>= f) ↔ Within b n m ∧ Within b n (f (run b m)) := by
  simp only [Within, offsets_bind, List.mem_append]
  exact ⟨fun h => ⟨fun o ho => h o (Or.inl ho), fun o ho => h o (Or.inr ho)⟩,
    fun h o ho => ho.elim (h.1 o) (h.2 o)⟩

/-- What lies at `n` and above does not matter to a program that stays below. -/
lemma Within.run_eq {c : ℕ → β} {m : Reader β α} (h : Within b n m) (hc : ∀ o < n, c o = b o) :
    run c m = run b m :=
  run_congr fun o ho => hc o (h o ho)

end Reader

/-! ## What lies in a buffer -/

/-- From cell `o` on the buffer holds `l`. -/
def Holds (b : ℕ → β) (o : ℕ) : List β → Prop
  | [] => True
  | x :: l => b o = x ∧ Holds b (o + 1) l

@[simp] lemma holds_nil (b : ℕ → β) (o : ℕ) : Holds b o [] :=
  trivial

@[simp] lemma holds_cons {b : ℕ → β} {o : ℕ} {x : β} {l : List β} :
    Holds b o (x :: l) ↔ b o = x ∧ Holds b (o + 1) l :=
  Iff.rfl

@[simp] lemma holds_append {b : ℕ → β} {o : ℕ} {l m : List β} :
    Holds b o (l ++ m) ↔ Holds b o l ∧ Holds b (o + l.length) m := by
  induction l generalizing o with
  | nil => simp
  | cons x l ih =>
      simp only [List.cons_append, holds_cons, ih, List.length_cons, and_assoc]
      rw [show o + 1 + l.length = o + (l.length + 1) by omega]

/-- A list as a buffer. -/
def ofList (l : List β) (rest : β) : ℕ → β :=
  fun o => l.getD o rest

lemma holds_ofList (l : List β) (rest : β) : Holds (ofList l rest) 0 l := by
  have hfrom : ∀ (m front : List β), Holds (ofList (front ++ m) rest) front.length m := by
    intro m
    induction m with
    | nil => exact fun _ => holds_nil _ _
    | cons x m ih =>
        intro front
        have hnext := ih (front ++ [x])
        rw [List.append_assoc, List.length_append] at hnext
        exact ⟨by simp [ofList], hnext⟩
  exact hfrom l []

end ByteReader
