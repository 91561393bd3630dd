import Mathlib.Data.List.Basic

/-!
# A bounded queue between one producer and one consumer

What a single-producer single-consumer ring is for, without slots and without wrapping counters.
Entries are numbered from `0` in the order in which they are submitted; the producer reserves the
next numbers, writes entries under them and submits them, the consumer is lent submitted entries,
reads them under their numbers and releases them.

* `Step` is one operation with its outcome; a reservation is granted exactly when there is room for
  it, and a peek lends something whenever there is something.
* `Run.read_sent` says what the consumer may rely on: the entry read under a number is the one that
  was submitted under it.
-/

/-- The entries submitted so far, those reserved but not submitted, and how many of the submitted
ones have been released and lent. -/
structure BoundedQueue (α : Type) (capacity : ℕ) where
  sent : List α
  draft : List α
  head : ℕ
  lent : ℕ
  head_le_lent : head ≤ lent
  lent_le_sent : lent ≤ sent.length
  room : sent.length + draft.length ≤ head + capacity

namespace BoundedQueue

/-- An operation with what it returned.  `ι` is the type of the numbers entries are addressed by. -/
inductive Event (ι α : Type) where
  /-- `n` entries were reserved, the first one numbered `first`. -/
  | reserve (n : ℕ) (first : ι)
  /-- `n` entries were asked for and none was reserved. -/
  | refuse (n : ℕ)
  | write (i : ι) (x : α)
  | submit (xs : List α)
  /-- `n` entries were asked for and `got > 0` were lent, the first one numbered `first`. -/
  | peek (n got : ℕ) (first : ι)
  /-- `n` entries were asked for and none was lent. -/
  | empty (n : ℕ)
  | read (i : ι) (x : α)
  | release (n : ℕ)
deriving DecidableEq, Repr

/-- The same event with its entries numbered differently. -/
def Event.renumber {ι κ α : Type} (f : ι → κ) : Event ι α → Event κ α
  | .reserve n first => .reserve n (f first)
  | .refuse n => .refuse n
  | .write i x => .write (f i) x
  | .submit xs => .submit xs
  | .peek n got first => .peek n got (f first)
  | .empty n => .empty n
  | .read i x => .read (f i) x
  | .release n => .release n

/-- The entries submitted by a sequence of operations. -/
def sentBy {ι α : Type} (events : List (Event ι α)) : List α :=
  events.flatMap fun
    | .submit xs => xs
    | _ => []

variable {α : Type} {capacity : ℕ}

/-- The queue nothing has been done with. -/
def new (α : Type) (capacity : ℕ) : BoundedQueue α capacity where
  sent := []
  draft := []
  head := 0
  lent := 0
  head_le_lent := Nat.le_refl 0
  lent_le_sent := Nat.le_refl 0
  room := Nat.zero_le _

/-- One operation.  What a reserved entry holds before it is written is left open. -/
inductive Step (q : BoundedQueue α capacity) : Event ℕ α → BoundedQueue α capacity → Prop where
  | reserve {q' : BoundedQueue α capacity} {garbage : List α}
      (hsent : q'.sent = q.sent) (hdraft : q'.draft = q.draft ++ garbage)
      (hhead : q'.head = q.head) (hlent : q'.lent = q.lent) :
      Step q (.reserve garbage.length (q.sent.length + q.draft.length)) q'
  | refuse {n : ℕ} (hfull : q.head + capacity < q.sent.length + q.draft.length + n) :
      Step q (.refuse n) q
  | write {q' : BoundedQueue α capacity} {j : ℕ} {x : α} (hj : j < q.draft.length)
      (hsent : q'.sent = q.sent) (hdraft : q'.draft = q.draft.set j x)
      (hhead : q'.head = q.head) (hlent : q'.lent = q.lent) :
      Step q (.write (q.sent.length + j) x) q'
  | submit {q' : BoundedQueue α capacity} {xs : List α} (hsent : q'.sent = q.sent ++ xs)
      (hdraft : q.draft = xs ++ q'.draft) (hhead : q'.head = q.head) (hlent : q'.lent = q.lent) :
      Step q (.submit xs) q'
  | peek {q' : BoundedQueue α capacity} {n got : ℕ} (hgot : 0 < got) (hle : got ≤ n)
      (hsent : q'.sent = q.sent) (hdraft : q'.draft = q.draft)
      (hhead : q'.head = q.head) (hlent : q'.lent = q.lent + got) :
      Step q (.peek n got q.lent) q'
  | empty {n : ℕ} (hnone : n = 0 ∨ q.lent = q.sent.length) : Step q (.empty n) q
  | read {i : ℕ} {x : α} (hlo : q.head ≤ i) (hhi : i < q.lent) (hx : q.sent[i]? = some x) :
      Step q (.read i x) q
  | release {q' : BoundedQueue α capacity} {n : ℕ} (hsent : q'.sent = q.sent)
      (hdraft : q'.draft = q.draft) (hhead : q'.head = q.head + n) (hlent : q'.lent = q.lent) :
      Step q (.release n) q'

/-- The runs from the new queue, with what happened in order. -/
inductive Run : List (Event ℕ α) → BoundedQueue α capacity → Prop where
  | start : Run [] (new α capacity)
  | step {events : List (Event ℕ α)} {q q' : BoundedQueue α capacity} {e : Event ℕ α}
      (h : Run events q) (hs : Step q e q') : Run (events ++ [e]) q'

lemma sentBy_concat {ι : Type} (events : List (Event ι α)) (e : Event ι α) :
    sentBy (events ++ [e]) = sentBy events ++ sentBy [e] :=
  List.flatMap_append

/-- A step only ever adds to what has been submitted. -/
lemma Step.sent {q q' : BoundedQueue α capacity} {e : Event ℕ α} (h : Step q e q') :
    q'.sent = q.sent ++ sentBy [e] := by
  cases h with
  | submit hsent _ _ _ => simpa [sentBy] using hsent
  | refuse _ => simp [sentBy]
  | empty _ => simp [sentBy]
  | read _ _ _ => simp [sentBy]
  | reserve hsent _ _ _ => simpa [sentBy] using hsent
  | write _ hsent _ _ _ => simpa [sentBy] using hsent
  | peek _ _ hsent _ _ _ => simpa [sentBy] using hsent
  | release hsent _ _ _ => simpa [sentBy] using hsent

lemma Run.sent {events : List (Event ℕ α)} {q : BoundedQueue α capacity} (h : Run events q) :
    q.sent = sentBy events := by
  induction h with
  | start => rfl
  | step _ hs ih => rw [hs.sent, ih, sentBy_concat]

/-- **What is read is what was sent.** -/
lemma Run.read_sent {events : List (Event ℕ α)} {q : BoundedQueue α capacity} (h : Run events q)
    {i : ℕ} {x : α} (hread : .read i x ∈ events) : (sentBy events)[i]? = some x := by
  induction h with
  | start => exact absurd hread List.not_mem_nil
  | @step events q q' e hrun hs ih =>
      rw [sentBy_concat]
      rcases List.mem_append.mp hread with hold | hnew
      · rw [List.getElem?_append_left (List.getElem?_eq_some_iff.mp (ih hold)).1]
        exact ih hold
      · obtain rfl := List.mem_singleton.mp hnew
        cases hs with
        | read _ _ hx =>
            rw [hrun.sent] at hx
            rw [List.getElem?_append_left (List.getElem?_eq_some_iff.mp hx).1]
            exact hx

end BoundedQueue
