import Mathlib.Logic.Relation

/-!
# Thread programs cut into uninterrupted sections

A thread that shares its memory with others is not a function of that memory: between two of its
steps somebody else may have written.  `Prog σ α` is the shape of such a thread.  It is a finite
tree of *sections*; a section runs without interruption, and which program follows depends on the
memory the section started from.  `Prog.run` executes the tree alone, so a sequential reading of
the same program is available.

`Safe E J Q p s` is the proof obligation for the concurrent reading: `p` runs from `s`, the
environment may take any number of `E`-steps before every section and after the last one, `J` holds
at every moment and `Q` holds of the result once `p` has returned.

* `ends_ret` and `ends_sec` take an interleaved execution (`Ends`) apart.
* `Safe.sec_step` and `Safe.env_step` say that `Safe` is an invariant of the interleaved execution.
* `Safe.ret`, `Safe.atomic_bind`, `Safe.act_bind` and `Safe.bind` are the rules by which a program
  is proved safe, each with one assertion that the environment has to keep (`Stable`).
-/

namespace Sections

open Relation

variable {σ α β : Type}

/-- A thread program: either it has returned, or it runs one uninterrupted section `upd` and goes
on with `next`, chosen from the state the section started in. -/
inductive Prog (σ α : Type) where
  | ret (a : α) : Prog σ α
  | sec (upd : σ → σ) (next : σ → Prog σ α) : Prog σ α

namespace Prog

/-- Sequential composition. -/
protected def bind : Prog σ α → (α → Prog σ β) → Prog σ β
  | ret a, f => f a
  | sec u k, f => sec u fun s => (k s).bind f

instance : Monad (Prog σ) where
  pure := ret
  bind := Prog.bind

/-- One section that also returns a value. -/
def atomic (f : σ → σ × α) : Prog σ α :=
  sec (fun s => (f s).1) fun s => ret (f s).2

/-- One section run for its effect. -/
def act (f : σ → σ) : Prog σ Unit :=
  sec f fun _ => ret ()

/-- The program run alone, with nobody else writing in between. -/
def run : Prog σ α → σ → σ × α
  | ret a, s => (s, a)
  | sec u k, s => (k s).run (u s)

@[simp] lemma pure_eq (a : α) : (pure a : Prog σ α) = ret a := rfl

@[simp] lemma ret_bind (a : α) (f : α → Prog σ β) : (ret a >>= f) = f a := rfl

@[simp] lemma sec_bind (u : σ → σ) (k : σ → Prog σ α) (f : α → Prog σ β) :
    (sec u k >>= f) = sec u fun s => k s >>= f := rfl

@[simp] lemma run_atomic (f : σ → σ × α) (s : σ) : (atomic f).run s = f s := rfl

lemma run_bind (p : Prog σ α) (f : α → Prog σ β) (s : σ) :
    (p >>= f).run s = (f (p.run s).2).run (p.run s).1 := by
  induction p generalizing s with
  | ret a => rfl
  | sec u k ih =>
      simp only [sec_bind, run]
      exact ih s (u s)

lemma bind_assoc {γ : Type} (p : Prog σ α) (f : α → Prog σ β) (h : β → Prog σ γ) :
    (p >>= f) >>= h = p >>= fun a => f a >>= h := by
  induction p with
  | ret a => rfl
  | sec u k ih => exact congrArg (sec u) (funext ih)

/-- Every section the program can come to, from whatever state, satisfies `G`. -/
def Each (G : σ → σ → Prop) : Prog σ α → Prop
  | ret _ => True
  | sec u k => (∀ s, G s (u s)) ∧ ∀ s, (k s).Each G

section Each

variable {G : σ → σ → Prop}

lemma Each.bind {p : Prog σ α} {f : α → Prog σ β} (hp : p.Each G) (hf : ∀ a, (f a).Each G) :
    (p >>= f).Each G := by
  induction p with
  | ret a => exact hf a
  | sec u k ih => exact ⟨hp.1, fun s => ih s (hp.2 s)⟩

lemma Each.atomic {f : σ → σ × α} (h : ∀ s, G s (f s).1) : (Prog.atomic f).Each G :=
  ⟨h, fun _ => trivial⟩

lemma Each.act {f : σ → σ} (h : ∀ s, G s (f s)) : (Prog.act f).Each G :=
  ⟨h, fun _ => trivial⟩

/-- What every section does the whole program does, run alone. -/
lemma Each.run {p : Prog σ α} (h : p.Each G) (hrefl : ∀ s, G s s)
    (htrans : ∀ s t u, G s t → G t u → G s u) (s : σ) : G s (p.run s).1 := by
  induction p generalizing s with
  | ret a => exact hrefl s
  | sec u k ih => exact htrans _ _ _ (h.1 s) (ih s (h.2 s) (u s))

end Each

end Prog

/-! ## Safety under interference -/

/-- An assertion the environment keeps. -/
def Stable (E : σ → σ → Prop) (P : σ → Prop) : Prop :=
  ∀ ⦃s s'⦄, P s → E s s' → P s'

lemma Stable.star {E : σ → σ → Prop} {P : σ → Prop} (h : Stable E P) {s s' : σ} (hp : P s)
    (hs : ReflTransGen E s s') : P s' := by
  induction hs with
  | refl => exact hp
  | tail _ hstep ih => exact h ih hstep

/-- `p`, started in `s` and interleaved with the environment, returns `a` in `s'`. -/
inductive Ends (E : σ → σ → Prop) : Prog σ α → σ → α → σ → Prop where
  | ret (a : α) (s : σ) : Ends E (.ret a) s a s
  | sec {u : σ → σ} {k : σ → Prog σ α} {s s' : σ} {a : α} (h : Ends E (k s) (u s) a s') :
      Ends E (.sec u k) s a s'
  | env {p : Prog σ α} {s t s' : σ} {a : α} (hs : E s t) (h : Ends E p t a s') : Ends E p s a s'

/-- The program run alone is one of its executions. -/
lemma Ends.run (E : σ → σ → Prop) (p : Prog σ α) (s : σ) : Ends E p s (p.run s).2 (p.run s).1 := by
  induction p generalizing s with
  | ret a => exact .ret a s
  | sec u k ih => exact .sec (ih s (u s))

section Ends

variable {E : σ → σ → Prop} {s t s' : σ} {a b : α}

/-- The environment may go first. -/
lemma Ends.after {p : Prog σ α} (hs : ReflTransGen E s t) (h : Ends E p t a s') : Ends E p s a s' := by
  induction hs using ReflTransGen.head_induction_on with
  | refl => exact h
  | head hstep _ ih => exact .env hstep ih

/-- A program that has returned leaves the environment to itself. -/
lemma ends_ret : Ends E (.ret a) s b s' ↔ b = a ∧ ReflTransGen E s s' := by
  constructor
  · intro h
    generalize hp : (.ret a : Prog σ α) = p at h
    induction h with
    | ret => exact ⟨(Prog.ret.inj hp).symm, .refl⟩
    | sec => exact absurd hp (by simp)
    | env hs _ ih => exact ⟨(ih hp).1, .head hs (ih hp).2⟩
  · rintro ⟨rfl, hs⟩
    exact .after hs (.ret b s')

/-- The first section is taken after some steps of the environment. -/
lemma ends_sec {u : σ → σ} {k : σ → Prog σ α} :
    Ends E (.sec u k) s a s' ↔ ∃ t, ReflTransGen E s t ∧ Ends E (k t) (u t) a s' := by
  constructor
  · intro h
    generalize hp : (.sec u k : Prog σ α) = p at h
    induction h with
    | ret => exact absurd hp (by simp)
    | sec h =>
        obtain ⟨rfl, rfl⟩ := Prog.sec.inj hp
        exact ⟨_, .refl, h⟩
    | env hs _ ih =>
        obtain ⟨t, ht, h⟩ := ih hp
        exact ⟨t, .head hs ht, h⟩
  · rintro ⟨t, hs, h⟩
    exact .after hs (.sec h)

lemma ends_atomic_bind {f : σ → σ × β} {g : β → Prog σ α} :
    Ends E (Prog.atomic f >>= g) s a s'
      ↔ ∃ t, ReflTransGen E s t ∧ Ends E (g (f t).2) (f t).1 a s' :=
  ends_sec

end Ends

/-- `p` runs safely from `s`: whatever the environment does in between, `J` always holds and `Q`
holds of the returned value and every state reached after the return. -/
def Safe (E : σ → σ → Prop) (J : σ → Prop) (Q : α → σ → Prop) : Prog σ α → σ → Prop
  | .ret a, s => ∀ s', ReflTransGen E s s' → J s' ∧ Q a s'
  | .sec u k, s => ∀ s', ReflTransGen E s s' → J s' ∧ Safe E J Q (k s') (u s')

section Rules

variable {E : σ → σ → Prop} {J : σ → Prop} {Q : α → σ → Prop}

lemma Safe.now {p : Prog σ α} {s : σ} (h : Safe E J Q p s) : J s := by
  cases p with
  | ret a => exact (h s .refl).1
  | sec u k => exact (h s .refl).1

lemma Safe.result {a : α} {s : σ} (h : Safe E J Q (.ret a) s) : Q a s :=
  (h s .refl).2

/-- The thread takes its next section. -/
lemma Safe.sec_step {u : σ → σ} {k : σ → Prog σ α} {s : σ} (h : Safe E J Q (.sec u k) s) :
    Safe E J Q (k s) (u s) :=
  (h s .refl).2

/-- The environment takes a step. -/
lemma Safe.env_step {p : Prog σ α} {s s' : σ} (h : Safe E J Q p s) (hs : E s s') :
    Safe E J Q p s' := by
  cases p with
  | ret a => exact fun t ht => h t (.head hs ht)
  | sec u k => exact fun t ht => h t (.head hs ht)

/-- Every execution comes to the result. -/
lemma Safe.ends {p : Prog σ α} {s s' : σ} {a : α} (h : Safe E J Q p s) (hend : Ends E p s a s') :
    Q a s' := by
  induction hend with
  | ret a s => exact h.result
  | sec _ ih => exact ih h.sec_step
  | env hs _ ih => exact ih (h.env_step hs)

/-- What is safe under interference is safe alone. -/
lemma Safe.run {p : Prog σ α} {s : σ} (h : Safe E J Q p s) : Q (p.run s).2 (p.run s).1 :=
  h.ends (Ends.run E p s)

/-- **Returning.**  A stable assertion that gives `J` and `Q` is enough. -/
lemma Safe.ret {P : σ → Prop} (hst : Stable E P) (hJ : ∀ s, P s → J s) {a : α}
    (hQ : ∀ s, P s → Q a s) {s : σ} (hp : P s) : Safe E J Q (.ret a) s := by
  intro t ht
  have hpt := hst.star hp ht
  exact ⟨hJ t hpt, hQ t hpt⟩

/-- Returning, where the assertion is the result. -/
lemma Safe.done {P : σ → Prop} (hst : Stable E P) (hJ : ∀ s, P s → J s) {a : α} {s : σ}
    (hp : P s) : Safe E J (fun _ => P) (.ret a) s :=
  Safe.ret hst hJ (fun _ h => h) hp

/-- **One section.**  From a stable assertion, the section may be taken in any state that meets
it. -/
lemma Safe.sec {P : σ → Prop} (hst : Stable E P) (hJ : ∀ s, P s → J s) {u : σ → σ}
    {k : σ → Prog σ α} (hk : ∀ s, P s → Safe E J Q (k s) (u s)) {s : σ} (hp : P s) :
    Safe E J Q (.sec u k) s := by
  intro t ht
  have hpt := hst.star hp ht
  exact ⟨hJ t hpt, hk t hpt⟩

lemma Safe.atomic_bind {P : σ → Prop} (hst : Stable E P) (hJ : ∀ s, P s → J s) {f : σ → σ × β}
    {g : β → Prog σ α} (hk : ∀ s, P s → Safe E J Q (g (f s).2) (f s).1) {s : σ} (hp : P s) :
    Safe E J Q (Prog.atomic f >>= g) s :=
  Safe.sec hst hJ hk hp

lemma Safe.act_bind {P : σ → Prop} (hst : Stable E P) (hJ : ∀ s, P s → J s) {f : σ → σ}
    {g : Unit → Prog σ α} (hk : ∀ s, P s → Safe E J Q (g ()) (f s)) {s : σ} (hp : P s) :
    Safe E J Q (Prog.act f >>= g) s :=
  Safe.sec hst hJ hk hp

/-- A program every section of which keeps a stable assertion. -/
lemma Safe.of_each {P : σ → Prop} (hst : Stable E P) (hJ : ∀ s, P s → J s) {p : Prog σ α}
    (hp : p.Each fun s s' => P s → P s') {s : σ} (h : P s) : Safe E J (fun _ => P) p s := by
  induction p generalizing s with
  | ret a => exact Safe.done hst hJ h
  | sec u k ih => exact Safe.sec hst hJ (fun t ht => ih t (hp.2 t) (hp.1 t ht)) h

/-- **Sequencing.**  What the first program guarantees is where the second one starts. -/
lemma Safe.bind {R : β → σ → Prop} {p : Prog σ β} {g : β → Prog σ α} {s : σ}
    (h : Safe E J R p s) (hg : ∀ b s, R b s → Safe E J Q (g b) s) :
    Safe E J Q (p >>= g) s := by
  induction p generalizing s with
  | ret b => exact hg b s h.result
  | sec u k ih => exact fun t ht => ⟨(h t ht).1, ih t (h t ht).2⟩

end Rules

-- from here on programs are proved safe by the rules only
attribute [irreducible] Safe

end Sections
