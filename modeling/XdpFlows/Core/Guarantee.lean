import XdpFlows.Core.Sections

/-!
# What a thread program guarantees

`Safe` speaks of the states a program can be in.  `Guarantees E J G Q p s` speaks of its steps too:
besides what `Safe E J Q p s` says, every section `p` takes is a step of the relation `G`.  The rules
are those of `Safe` with one more obligation for each section, so one proof along the program gives
both.

`Guarantees.keeps` is what the guarantee is for: anything that `G` and the environment keep is kept
throughout, without another walk through the program.
-/

namespace Sections

open Relation

variable {σ α β : Type}

/-- `p` runs safely from `s`, and every section of it is a step of `G`. -/
def Guarantees (E : σ → σ → Prop) (J : σ → Prop) (G : σ → σ → Prop) (Q : α → σ → Prop) :
    Prog σ α → σ → Prop
  | .ret a, s => ∀ s', ReflTransGen E s s' → J s' ∧ Q a s'
  | .sec u k, s => ∀ s', ReflTransGen E s s' → J s' ∧ G s' (u s') ∧ Guarantees E J G Q (k s') (u s')

namespace Guarantees

variable {E : σ → σ → Prop} {J : σ → Prop} {G : σ → σ → Prop} {Q : α → σ → Prop}

lemma now {p : Prog σ α} {s : σ} (h : Guarantees E J G Q p s) : J s := by
  cases p with
  | ret a => exact (h s .refl).1
  | sec u k => exact (h s .refl).1

lemma result {a : α} {s : σ} (h : Guarantees E J G Q (.ret a) s) : Q a s :=
  (h s .refl).2

/-- The thread takes its next section. -/
lemma sec_step {u : σ → σ} {k : σ → Prog σ α} {s : σ} (h : Guarantees E J G Q (.sec u k) s) :
    G s (u s) ∧ Guarantees E J G Q (k s) (u s) :=
  (h s .refl).2

/-- The environment takes a step. -/
lemma env_step {p : Prog σ α} {s s' : σ} (h : Guarantees E J G Q p s) (hs : E s s') :
    Guarantees E J G Q p s' := by
  cases p with
  | ret a => exact fun t ht => h t (.head hs ht)
  | sec u k => exact fun t ht => h t (.head hs ht)

/-- What is left when the steps are forgotten. -/
lemma safe {p : Prog σ α} {s : σ} (h : Guarantees E J G Q p s) : Safe E J Q p s := by
  have hst : ∀ s, Stable E (ReflTransGen E s) := fun _ _ _ ht hs => ht.tail hs
  induction p generalizing s with
  | ret a => exact Safe.ret (hst s) (fun t ht => (h t ht).1) (fun t ht => (h t ht).2) .refl
  | sec u k ih =>
      exact Safe.sec (hst s) (fun t ht => (h t ht).1) (fun t ht => ih t (h t ht).2.2) .refl

lemma imp {G' : σ → σ → Prop} {Q' : α → σ → Prop} {p : Prog σ α} {s : σ} (h : Guarantees E J G Q p s)
    (hG : ∀ s s', G s s' → G' s s') (hQ : ∀ a s, Q a s → Q' a s) : Guarantees E J G' Q' p s := by
  induction p generalizing s with
  | ret a => exact fun t ht => ⟨(h t ht).1, hQ a t (h t ht).2⟩
  | sec u k ih => exact fun t ht => ⟨(h t ht).1, hG _ _ (h t ht).2.1, ih t (h t ht).2.2⟩

/-- Two guarantees, one of which was found without looking at the states. -/
lemma each {G' : σ → σ → Prop} {p : Prog σ α} {s : σ} (h : Guarantees E J G Q p s) (h' : p.Each G') :
    Guarantees E J (fun s s' => G s s' ∧ G' s s') Q p s := by
  induction p generalizing s with
  | ret a => exact h
  | sec u k ih =>
      intro t ht
      exact ⟨(h t ht).1, ⟨(h t ht).2.1, h'.1 t⟩, ih t (h t ht).2.2 (h'.2 t)⟩

/-- What the environment keeps is kept until the next section. -/
lemma env_keeps {I : σ → Prop} (hE : ∀ s s', J s → J s' → I s → E s s' → I s') {p : Prog σ α}
    {s t : σ} (h : Guarantees E J G Q p s) (hI : I s) (hst : ReflTransGen E s t) : I t := by
  have hboth : Guarantees E J G Q p t ∧ I t := by
    induction hst with
    | refl => exact ⟨h, hI⟩
    | tail _ hstep ih =>
        have h' := ih.1.env_step hstep
        exact ⟨h', hE _ _ ih.1.now h'.now ih.2 hstep⟩
  exact hboth.2

/-- **What all steps keep is kept.** -/
lemma keeps {I : σ → Prop} (hG : ∀ s s', J s → J s' → I s → G s s' → I s')
    (hE : ∀ s s', J s → J s' → I s → E s s' → I s') {p : Prog σ α} {s : σ}
    (h : Guarantees E J G Q p s) (hI : I s) : Guarantees E J G (fun a s => Q a s ∧ I s) p s := by
  induction p generalizing s with
  | ret a => exact fun t ht => ⟨(h t ht).1, (h t ht).2, h.env_keeps hE hI ht⟩
  | sec u k ih =>
      intro t ht
      obtain ⟨hJ, hstep, hrest⟩ := h t ht
      exact ⟨hJ, hstep, ih t hrest (hG _ _ hJ hrest.now (h.env_keeps hE hI ht) hstep)⟩

/-- The program run alone: what its own steps keep is kept, whatever the environment might do. -/
lemma alone {I : σ → Prop} (hG : ∀ s s', I s → G s s' → I s') {p : Prog σ α} {s : σ}
    (h : Guarantees E J G Q p s) (hI : I s) : I (p.run s).1 ∧ Q (p.run s).2 (p.run s).1 := by
  induction p generalizing s with
  | ret a => exact ⟨hI, h.result⟩
  | sec u k ih => exact ih s h.sec_step.2 (hG _ _ hI h.sec_step.1)

/-- **Returning.** -/
lemma done {P : σ → Prop} (hst : Stable E P) (hJ : ∀ s, P s → J s) {a : α} {s : σ} (hp : P s) :
    Guarantees E J G (fun _ => P) (.ret a) s := by
  intro t ht
  have hpt := hst.star hp ht
  exact ⟨hJ t hpt, hpt⟩

/-- **One section.** -/
lemma sec {P : σ → Prop} (hst : Stable E P) (hJ : ∀ s, P s → J s) {u : σ → σ} {k : σ → Prog σ α}
    (hk : ∀ s, P s → G s (u s) ∧ Guarantees E J G Q (k s) (u s)) {s : σ} (hp : P s) :
    Guarantees E J G Q (.sec u k) s := by
  intro t ht
  have hpt := hst.star hp ht
  exact ⟨hJ t hpt, hk t hpt⟩

lemma atomic_bind {P : σ → Prop} (hst : Stable E P) (hJ : ∀ s, P s → J s) {f : σ → σ × β}
    {g : β → Prog σ α} (hk : ∀ s, P s → G s (f s).1 ∧ Guarantees E J G Q (g (f s).2) (f s).1) {s : σ}
    (hp : P s) : Guarantees E J G Q (Prog.atomic f >>= g) s :=
  sec hst hJ hk hp

lemma act_bind {P : σ → Prop} (hst : Stable E P) (hJ : ∀ s, P s → J s) {f : σ → σ}
    {g : Unit → Prog σ α} (hk : ∀ s, P s → G s (f s) ∧ Guarantees E J G Q (g ()) (f s)) {s : σ}
    (hp : P s) : Guarantees E J G Q (Prog.act f >>= g) s :=
  sec hst hJ hk hp

/-- **Sequencing.** -/
lemma bind {R : β → σ → Prop} {p : Prog σ β} {g : β → Prog σ α} {s : σ}
    (h : Guarantees E J G R p s) (hg : ∀ b s, R b s → Guarantees E J G Q (g b) s) :
    Guarantees E J G Q (p >>= g) s := by
  induction p generalizing s with
  | ret b => exact hg b s h.result
  | sec u k ih => exact fun t ht => ⟨(h t ht).1, (h t ht).2.1, ih t (h t ht).2.2⟩

end Guarantees

-- from here on programs are walked through by the rules only
attribute [irreducible] Guarantees

end Sections
