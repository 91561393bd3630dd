import Mathlib
import XdpFlows.Flow.Monitor

/-!
# The flow file

What an iteration of the loop of `exportThread` (`export.c`) does about the file it writes to: it
looks at `last_packet_timestamp` and opens the file of the next half hour when the packets have got
there.  The seconds it compares are 64 bits wide and unsigned, `prev_second` is 32 bits wide and
signed, and the test that is to leave out the end of time always holds.

`follows_iff_trackable` says for which times the file is the one of the packets: a negative
`prev_second` is never passed again, and one that has lost its upper bits is passed by every packet.
-/

namespace Flow

/-! ## The loop -/

/-- The name of a flow file, as `sprintf` writes it. -/
def flowFileName (n : ℕ) : String :=
  "./output/" ++ "/flows" ++ "test" ++ "_" ++ toString n ++ ".txt"

/-- What `exportThread` keeps about its file: `prev_second`, the file that is open, and how many
times the loop has opened one. -/
structure FlowFile where
  prevSecond : Int32
  file : String
  opened : ℕ

/-- A signed value where an unsigned one of 64 bits is needed. -/
def widen (x : Int32) : UInt64 :=
  x.toInt64.toUInt64

/-- `last_packet_timestamp != INFINITY`.  The time is converted to a floating point number first,
and that is finite for every time. -/
def neInfinity (_ : UInt64) : Bool :=
  true

/-- `current_second`. -/
def currentSecond (tz : Int32) (last : UInt64) : UInt64 :=
  last / 1000000 + widen tz

/-- The end of an iteration of the loop, with `last_packet_timestamp` at `last`. -/
def observe (tz : Int32) (f : FlowFile) (last : UInt64) : FlowFile :=
  if (neInfinity last ∧ last ≠ 0) ∧ widen f.prevSecond < currentSecond tz last then
    let f := if widen (f.prevSecond / 1800) < currentSecond tz last / 1800 then
        { f with
          file := flowFileName (currentSecond tz last / 1800 * 1800 - widen tz).toNat
          opened := f.opened + 1 }
      else f
    { f with prevSecond := (currentSecond tz last).toUInt32.toInt32 }
  else f

/-- The loop over what it sees of `last_packet_timestamp`. -/
def observeAll (tz : Int32) (f : FlowFile) (seen : List UInt64) : FlowFile :=
  seen.foldl (observe tz) f

/-- The iteration opens a file. -/
def Reopens (tz : Int32) (f : FlowFile) (last : UInt64) : Prop :=
  (observe tz f last).opened ≠ f.opened

/-! ## The time of the packets -/

/-- The second of a packet in local time. -/
def localSecond (tz : Int32) (t : UInt64) : ℤ :=
  (t.toNat / 1000000 : ℕ) + tz.toInt

/-- The half hour of a packet. -/
def bucket (tz : Int32) (t : UInt64) : ℤ :=
  localSecond tz t / 1800

/-- The file of a packet. -/
def fileOf (tz : Int32) (t : UInt64) : String :=
  flowFileName (bucket tz t * 1800 - tz.toInt).toNat

/-- A local time is less than a day away. -/
def Zone (tz : Int32) : Prop :=
  -86400 < tz.toInt ∧ tz.toInt < 86400

/-- Times that are those of packets: after the first two days, before 2^63. -/
def PacketTime (t : UInt64) : Prop :=
  172800000000 ≤ t.toNat ∧ t.toNat < 2 ^ 63

/-- The second does not fit into `prev_second` without getting negative. -/
def Negative (tz : Int32) (t : UInt64) : Prop :=
  2 ^ 31 ≤ localSecond tz t % 2 ^ 32

/-! ## Widths -/

section Widths

variable {tz : Int32} {t : UInt64} {f : FlowFile}

lemma toNat_widen (x : Int32) : ((widen x).toNat : ℤ) = x.toInt % 2 ^ 64 := by
  have hext : (x.toBitVec.signExtend 64).toInt = x.toInt :=
    BitVec.toInt_signExtend_of_le (by decide)
  have hnat : (widen x).toNat = (x.toBitVec.signExtend 64).toNat := rfl
  have hlt := (x.toBitVec.signExtend 64).isLt
  rw [BitVec.toInt_eq_toNat_cond] at hext
  rw [hnat, ← hext]
  split_ifs
  · omega
  · omega

lemma toInt_truncate (x : UInt64) : x.toUInt32.toInt32.toInt
    = if (x.toNat : ℤ) % 2 ^ 32 < 2 ^ 31 then (x.toNat : ℤ) % 2 ^ 32
      else (x.toNat : ℤ) % 2 ^ 32 - 2 ^ 32 := by
  have hnat : x.toUInt32.toInt32.toBitVec.toNat = x.toNat % 2 ^ 32 := UInt64.toNat_toUInt32 x
  show x.toUInt32.toInt32.toBitVec.toInt = _
  rw [BitVec.toInt_eq_toNat_cond, hnat]
  split_ifs
  · omega
  · omega
  · omega
  · omega

lemma toNat_currentSecond (hz : Zone tz) (ht : 172800000000 ≤ t.toNat) :
    ((currentSecond tz t).toNat : ℤ) = localSecond tz t := by
  obtain ⟨hlow, hhigh⟩ := hz
  have hwiden := toNat_widen tz
  have hlt := t.toNat_lt
  rw [currentSecond, localSecond, UInt64.toNat_add, UInt64.toNat_div]
  have hmillion : (1000000 : UInt64).toNat = 1000000 := rfl
  rw [hmillion]
  omega

/-- Seconds of local time are positive, and a good deal smaller than 2^63. -/
lemma localSecond_bounds (hz : Zone tz) (ht : 172800000000 ≤ t.toNat) :
    86400 < localSecond tz t ∧ localSecond tz t < 2 ^ 45 := by
  obtain ⟨hlow, hhigh⟩ := hz
  have hlt := t.toNat_lt
  rw [localSecond]
  omega

/-- The first comparison. -/
lemma widen_lt_currentSecond (hz : Zone tz) (ht : 172800000000 ≤ t.toNat) (prev : Int32) :
    widen prev < currentSecond tz t ↔ 0 ≤ prev.toInt ∧ prev.toInt < localSecond tz t := by
  have hwiden := toNat_widen prev
  have hcurrent := toNat_currentSecond hz ht
  have hbounds := localSecond_bounds hz ht
  have hlow := prev.le_toInt
  have hhigh := prev.toInt_lt
  rw [UInt64.lt_iff_toNat_lt]
  omega

/-- The second comparison. -/
lemma widen_div_lt_currentSecond (hz : Zone tz) (ht : 172800000000 ≤ t.toNat) {prev : Int32}
    (hprev : 0 ≤ prev.toInt) :
    widen (prev / 1800) < currentSecond tz t / 1800 ↔ prev.toInt / 1800 < bucket tz t := by
  have hdiv : (prev / 1800).toInt = prev.toInt / 1800 := by
    have hhigh := prev.toInt_lt
    rw [Int32.toInt_div, show (1800 : Int32).toInt = 1800 from rfl, Int.tdiv_eq_ediv_of_nonneg hprev]
    apply Int.bmod_eq_of_le
    · omega
    · omega
  have hwiden := toNat_widen (prev / 1800)
  have hcurrent := toNat_currentSecond hz ht
  have hbounds := localSecond_bounds hz ht
  have hhigh := prev.toInt_lt
  rw [UInt64.lt_iff_toNat_lt, UInt64.toNat_div, bucket, show (1800 : UInt64).toNat = 1800 from rfl]
  omega

/-- The name. -/
lemma flowFileName_currentSecond (hz : Zone tz) (ht : 172800000000 ≤ t.toNat) :
    flowFileName (currentSecond tz t / 1800 * 1800 - widen tz).toNat = fileOf tz t := by
  have hwiden := toNat_widen tz
  have hcurrent := toNat_currentSecond hz ht
  have hbounds := localSecond_bounds hz ht
  obtain ⟨hlow, hhigh⟩ := hz
  rw [fileOf, bucket]
  congr 1
  rw [UInt64.toNat_sub, UInt64.toNat_mul, UInt64.toNat_div, show (1800 : UInt64).toNat = 1800 from rfl]
  omega

/-- Different half hours have different files. -/
lemma fileOf_inj (hz : Zone tz) {u : UInt64} (ht : 172800000000 ≤ t.toNat)
    (hu : 172800000000 ≤ u.toNat) (h : fileOf tz t = fileOf tz u) : bucket tz t = bucket tz u := by
  have htb := localSecond_bounds hz ht
  have hub := localSecond_bounds hz hu
  obtain ⟨hlow, hhigh⟩ := hz
  have hname : (bucket tz t * 1800 - tz.toInt).toNat = (bucket tz u * 1800 - tz.toInt).toNat := by
    simpa [fileOf, flowFileName, Nat.repr_inj] using h
  rw [bucket, bucket] at hname ⊢
  omega

lemma localSecond_mono (tz : Int32) {u : UInt64} (h : t ≤ u) : localSecond tz t ≤ localSecond tz u := by
  have hdiv := Nat.div_le_div_right (c := 1000000) (UInt64.le_iff_toNat_le.mp h)
  rw [localSecond, localSecond]
  omega

end Widths

/-! ## An iteration -/

section Iteration

variable {tz : Int32} {t : UInt64} {f : FlowFile} {us : List UInt64}

lemma observe_zero (tz : Int32) (f : FlowFile) : observe tz f 0 = f := by
  simp [observe]

/-- **An iteration**, in terms of local time. -/
lemma observe_eq (hz : Zone tz) (ht : 172800000000 ≤ t.toNat) (f : FlowFile) :
    observe tz f t
      = if 0 ≤ f.prevSecond.toInt ∧ f.prevSecond.toInt < localSecond tz t then
          if f.prevSecond.toInt / 1800 < bucket tz t then
            { prevSecond := (currentSecond tz t).toUInt32.toInt32
              file := fileOf tz t
              opened := f.opened + 1 }
          else { f with prevSecond := (currentSecond tz t).toUInt32.toInt32 }
        else f := by
  have hne : t ≠ 0 := by
    rintro rfl
    exact absurd ht (by decide)
  rw [observe]
  simp only [neInfinity, hne, ne_eq, not_false_eq_true, and_self, true_and,
    widen_lt_currentSecond hz ht, flowFileName_currentSecond hz ht]
  split_ifs with hlt hdiv hbucket hbucket
  · rfl
  · exact absurd ((widen_div_lt_currentSecond hz ht hlt.1).mp hdiv) hbucket
  · exact absurd ((widen_div_lt_currentSecond hz ht hlt.1).mpr hbucket) hdiv
  · rfl
  · rfl

/-- What `prev_second` holds after the times `us`: the last of them, up to 2^32, unless one of them
has made it negative. -/
def Tracks (tz : Int32) (us : List UInt64) (prev : Int32) : Prop :=
  (us = [] ∧ prev.toInt = 0) ∨ ((∃ v ∈ us, Negative tz v) ∧ prev.toInt < 0)
    ∨ ((∀ v ∈ us, ¬ Negative tz v)
      ∧ ∃ u, us.getLast? = some u ∧ prev.toInt = localSecond tz u % 2 ^ 32)

/-- The times on which a file is opened. -/
def Passes (tz : Int32) (us : List UInt64) (t : UInt64) : Prop :=
  us = [] ∨ ((∀ v ∈ us, ¬ Negative tz v)
    ∧ ∃ u, us.getLast? = some u ∧ (2 ^ 32 ≤ localSecond tz u ∨ bucket tz u ≠ bucket tz t))

lemma tracks_truncate (hz : Zone tz) (ht : 172800000000 ≤ t.toNat)
    (h : ∀ v ∈ us, ¬ Negative tz v) :
    Tracks tz (us ++ [t]) (currentSecond tz t).toUInt32.toInt32 := by
  have hcurrent := toNat_currentSecond hz ht
  have hbounds := localSecond_bounds hz ht
  by_cases hneg : Negative tz t
  · refine Or.inr (Or.inl ⟨⟨t, by simp, hneg⟩, ?_⟩)
    rw [Negative] at hneg
    rw [toInt_truncate, hcurrent, if_neg (by omega)]
    omega
  · refine Or.inr (Or.inr ⟨?_, t, by simp, ?_⟩)
    · exact List.forall_mem_append.mpr ⟨h, by simpa using hneg⟩
    · rw [Negative] at hneg
      rw [toInt_truncate, hcurrent, if_pos (by omega)]

/-- **The step lemma.** -/
lemma Tracks.observe (hz : Zone tz) (ht : 172800000000 ≤ t.toNat) (hle : ∀ u ∈ us, u ≤ t)
    (hlate : ∀ u ∈ us, 172800000000 ≤ u.toNat) (h : Tracks tz us f.prevSecond) :
    Tracks tz (us ++ [t]) (Flow.observe tz f t).prevSecond
      ∧ (Passes tz us t → (Flow.observe tz f t).file = fileOf tz t
        ∧ (Flow.observe tz f t).opened = f.opened + 1)
      ∧ (¬ Passes tz us t → (Flow.observe tz f t).file = f.file
        ∧ (Flow.observe tz f t).opened = f.opened) := by
  have hbounds := localSecond_bounds hz ht
  rw [observe_eq hz ht]
  rcases h with ⟨rfl, hprev⟩ | ⟨⟨v, hv, hneg⟩, hprev⟩ | ⟨hnone, u, hu, hprev⟩
  · -- the first time
    have hbucket : f.prevSecond.toInt / 1800 < bucket tz t := by
      rw [bucket]
      omega
    rw [if_pos (by omega), if_pos hbucket]
    refine ⟨tracks_truncate hz ht (by simp), fun _ => ⟨rfl, rfl⟩, fun hpass => ?_⟩
    exact absurd (Or.inl rfl) hpass
  · -- `prev_second` is negative for good
    rw [if_neg (by omega)]
    refine ⟨Or.inr (Or.inl ⟨⟨v, by simp [hv], hneg⟩, hprev⟩), ?_, fun _ => ⟨rfl, rfl⟩⟩
    rintro (rfl | ⟨hnone, -⟩)
    · exact absurd hv (by simp)
    · exact absurd hneg (hnone v hv)
  · have hmem : u ∈ us := List.mem_of_getLast? hu
    have hmono := localSecond_mono tz (hle u hmem)
    have hub := localSecond_bounds hz (hlate u hmem)
    have hnotneg := hnone u hmem
    rw [Negative] at hnotneg
    by_cases hlt : f.prevSecond.toInt < localSecond tz t
    · rw [if_pos ⟨by omega, hlt⟩]
      have hpass : Passes tz us t ↔ f.prevSecond.toInt / 1800 < bucket tz t := by
        constructor
        · rintro (rfl | ⟨-, w, hw, hor⟩)
          · simp at hu
          · obtain rfl : u = w := Option.some.inj (hu.symm.trans hw)
            rw [bucket, bucket] at hor
            rw [bucket]
            omega
        · intro hdiv
          refine Or.inr ⟨hnone, u, hu, ?_⟩
          rw [bucket] at hdiv
          rw [bucket, bucket]
          omega
      split_ifs with hdiv
      · exact ⟨tracks_truncate hz ht hnone, fun _ => ⟨rfl, rfl⟩,
          fun hno => absurd (hpass.mpr hdiv) hno⟩
      · exact ⟨tracks_truncate hz ht hnone, fun hyes => absurd (hpass.mp hyes) hdiv,
          fun _ => ⟨rfl, rfl⟩⟩
    · -- still the same second
      have hsame : localSecond tz u = localSecond tz t := by omega
      rw [if_neg (by omega)]
      refine ⟨Or.inr (Or.inr ⟨?_, t, by simp, by omega⟩), ?_, fun _ => ⟨rfl, rfl⟩⟩
      · have hneg : ¬ Negative tz t := by
          rw [Negative]
          omega
        exact List.forall_mem_append.mpr ⟨hnone, by simpa using hneg⟩
      · rintro (rfl | ⟨-, w, hw, hor⟩)
        · simp at hu
        · obtain rfl : u = w := Option.some.inj (hu.symm.trans hw)
          rw [bucket, bucket, hsame] at hor
          omega

end Iteration

/-! ## The loop -/

section Loop

variable {tz : Int32} {t : UInt64} {us ts : List UInt64} {file : String}

/-- Before the loop, with the file of the time of day open. -/
def FlowFile.start (file : String) : FlowFile where
  prevSecond := 0
  file := file
  opened := 0

lemma observeAll_concat (tz : Int32) (f : FlowFile) (us : List UInt64) (t : UInt64) :
    observeAll tz f (us ++ [t]) = observe tz (observeAll tz f us) t := by
  simp [observeAll]

/-- Before the first packet nothing happens. -/
lemma observeAll_zeros (tz : Int32) (f : FlowFile) (z : ℕ) (us : List UInt64) :
    observeAll tz f (List.replicate z 0 ++ us) = observeAll tz f us := by
  induction z with
  | zero => rfl
  | succ z ih =>
      rw [← ih, List.replicate_succ, List.cons_append, observeAll, List.foldl_cons, observe_zero]
      rfl

/-- Times that do not decrease, from the third day on. -/
def Forward (us : List UInt64) : Prop :=
  us.Pairwise (· ≤ ·) ∧ ∀ u ∈ us, 172800000000 ≤ u.toNat

lemma forward_concat : Forward (us ++ [t])
    ↔ Forward us ∧ (∀ u ∈ us, u ≤ t) ∧ 172800000000 ≤ t.toNat := by
  simp only [Forward, List.pairwise_append, List.pairwise_singleton, List.mem_singleton,
    forall_eq, true_and, List.forall_mem_append]
  tauto

lemma Forward.append_left {vs : List UInt64} (h : Forward (us ++ vs)) : Forward us :=
  ⟨(List.pairwise_append.mp h.1).1, (List.forall_mem_append.mp h.2).1⟩

/-- **`prev_second` along a run of the loop.** -/
lemma Forward.tracks (hz : Zone tz) (h : Forward us) :
    Tracks tz us (observeAll tz (.start file) us).prevSecond := by
  induction us using List.reverseRecOn with
  | nil => exact Or.inl ⟨rfl, rfl⟩
  | append_singleton us t ih =>
      obtain ⟨hus, hle, ht⟩ := forward_concat.mp h
      rw [observeAll_concat]
      exact ((ih hus).observe hz ht hle hus.2).1

/-- **The files along a run of the loop.** -/
lemma Forward.opens (file : String) (hz : Zone tz) (h : Forward (us ++ [t])) :
    (Passes tz us t → (observeAll tz (.start file) (us ++ [t])).file = fileOf tz t)
      ∧ (¬ Passes tz us t → (observeAll tz (.start file) (us ++ [t])).file
        = (observeAll tz (.start file) us).file)
      ∧ (Reopens tz (observeAll tz (.start file) us) t ↔ Passes tz us t) := by
  obtain ⟨hus, hle, ht⟩ := forward_concat.mp h
  have htracks : Tracks tz us (observeAll tz (.start file) us).prevSecond := hus.tracks hz
  obtain ⟨-, hyes, hno⟩ := htracks.observe hz ht hle hus.2
  rw [observeAll_concat]
  refine ⟨fun hpass => (hyes hpass).1, fun hpass => (hno hpass).1, ?_, fun hpass => ?_⟩
  · intro hreopens
    by_contra hpass
    exact hreopens (hno hpass).2
  · rw [Reopens, (hyes hpass).2]
    exact Nat.succ_ne_self _

/-! ## The file of the packets -/

/-- The flow file follows packet time, for `z` looks before the first packet, the times `ts`, and
`m` looks after `reset_flow_table`. -/
structure Follows (tz : Int32) (file : String) (z : ℕ) (ts : List UInt64) (m : ℕ) : Prop where
  zeros : ∀ k < z, ¬ Reopens tz (observeAll tz (.start file) (List.replicate k 0)) 0
  named : ∀ us t vs, ts = us ++ t :: vs →
    (observeAll tz (.start file) (List.replicate z 0 ++ us ++ [t])).file = fileOf tz t
  reopened : ∀ us t vs, ts = us ++ t :: vs →
    Reopens tz (observeAll tz (.start file) (List.replicate z 0 ++ us)) t →
      us = [] ∨ ∃ u, us.getLast? = some u ∧ bucket tz u ≠ bucket tz t
  infinities : ∀ k < m, ¬ Reopens tz
    (observeAll tz (.start file) (List.replicate z 0 ++ ts ++ List.replicate k infinity)) infinity
  flushed : ∀ t, ts.getLast? = some t →
    (observeAll tz (.start file) (List.replicate z 0 ++ ts ++ List.replicate m infinity)).file
      = fileOf tz t

/-- `prev_second` is good enough: once it has got negative all later times are in one half hour, a
second from 2^32 on is followed by another half hour, and there is no shutdown unless it has got
negative before. -/
structure Trackable (tz : Int32) (ts : List UInt64) (m : ℕ) : Prop where
  stuck : ∀ us u t vs, ts = us ++ u :: t :: vs → (∃ v ∈ us ++ [u], Negative tz v) →
    bucket tz u = bucket tz t
  lost : ∀ us u t vs, ts = us ++ u :: t :: vs → (∀ v ∈ us ++ [u], ¬ Negative tz v) →
    2 ^ 32 ≤ localSecond tz u → bucket tz u ≠ bucket tz t
  shutdown : 0 < m → ∃ v ∈ ts, Negative tz v

lemma not_passes_of_negative (h : ∃ v ∈ us, Negative tz v) : ¬ Passes tz us t := by
  obtain ⟨v, hv, hneg⟩ := h
  rintro (rfl | ⟨hnone, -⟩)
  · exact absurd hv (by simp)
  · exact hnone v hv hneg

lemma passes_infinity (hz : Zone tz) (htimes : ∀ t ∈ ts, PacketTime t)
    (h : ∀ v ∈ ts, ¬ Negative tz v) : Passes tz ts infinity := by
  rcases List.eq_nil_or_concat' ts with rfl | ⟨us, u, rfl⟩
  · exact Or.inl rfl
  · refine Or.inr ⟨h, u, by simp, Or.inr ?_⟩
    have hu := htimes u (by simp)
    have hinf : infinity.toNat = 2 ^ 64 - 1 := rfl
    obtain ⟨hlow, hhigh⟩ := hz
    obtain ⟨-, hlt⟩ := hu
    rw [bucket, bucket, localSecond, localSecond, hinf]
    omega

/-- Looks after the shutdown are looks at late times too. -/
lemma forward_infinities (hfwd : Forward ts) (m : ℕ) :
    Forward (ts ++ List.replicate m infinity) := by
  induction m with
  | zero => simpa using hfwd
  | succ m ih =>
      rw [List.replicate_succ', ← List.append_assoc, forward_concat]
      refine ⟨ih, fun u _ => ?_, by decide⟩
      rw [UInt64.le_iff_toNat_le]
      have hlt := u.toNat_lt
      have hinf : infinity.toNat = 2 ^ 64 - 1 := rfl
      omega

lemma Trackable.named (hz : Zone tz) (hfwd : Forward ts) {m : ℕ} (h : Trackable tz ts m)
    {vs : List UInt64} (heq : ts = us ++ t :: vs) :
    (observeAll tz (.start file) (us ++ [t])).file = fileOf tz t := by
  induction us using List.reverseRecOn generalizing t vs with
  | nil =>
      have hfwd' : Forward ([] ++ [t]) := by
        rw [heq, List.append_cons] at hfwd
        exact hfwd.append_left
      exact (hfwd'.opens file hz).1 (Or.inl rfl)
  | append_singleton us u ih =>
      have hfwd' : Forward (us ++ [u] ++ [t]) := by
        rw [heq, List.append_cons] at hfwd
        exact hfwd.append_left
      have heq' : ts = us ++ u :: t :: vs := by simpa using heq
      obtain ⟨hyes, hno, -⟩ := hfwd'.opens file hz
      by_cases hpass : Passes tz (us ++ [u]) t
      · exact hyes hpass
      · have hbucket : bucket tz u = bucket tz t := by
          by_cases hneg : ∃ v ∈ us ++ [u], Negative tz v
          · exact h.stuck us u t vs heq' hneg
          · by_contra hne
            refine hpass (Or.inr ⟨fun v hv hv' => hneg ⟨v, hv, hv'⟩, u, by simp, Or.inr hne⟩)
        rw [hno hpass, ih heq', fileOf, fileOf, hbucket]

/-- The shutdown leaves the file of the last packet open. -/
lemma Trackable.flushed (hz : Zone tz) (hfwd : Forward ts) {m k : ℕ} (h : Trackable tz ts m)
    (ht : ts.getLast? = some t) (hk : k ≤ m) :
    (observeAll tz (.start file) (ts ++ List.replicate k infinity)).file = fileOf tz t := by
  induction k with
  | zero =>
      obtain ⟨us, rfl⟩ := List.getLast?_eq_some_iff.mp ht
      rw [List.replicate_zero, List.append_nil]
      exact h.named hz hfwd rfl
  | succ k ih =>
      have hpass : ¬ Passes tz (ts ++ List.replicate k infinity) infinity := by
        obtain ⟨v, hv, hneg⟩ := h.shutdown (by omega)
        exact not_passes_of_negative ⟨v, List.mem_append_left _ hv, hneg⟩
      have hfwd' := forward_infinities hfwd (k + 1)
      rw [List.replicate_succ', ← List.append_assoc] at hfwd' ⊢
      rw [(hfwd'.opens file hz).2.1 hpass, ih (by omega)]

/-- **The flow file follows packet time exactly as long as `prev_second` is good enough.** -/
theorem follows_iff_trackable (hz : Zone tz) (htimes : ∀ t ∈ ts, PacketTime t)
    (hsorted : ts.Pairwise (· ≤ ·)) (file : String) (z m : ℕ) :
    Follows tz file z ts m ↔ Trackable tz ts m := by
  have hfwd : Forward ts := ⟨hsorted, fun t ht => (htimes t ht).1⟩
  have hsplit : ∀ {us t vs}, ts = us ++ t :: vs → Forward (us ++ [t]) := by
    intro us t vs heq
    rw [heq, List.append_cons] at hfwd
    exact hfwd.append_left
  constructor
  · intro h
    refine ⟨fun us u t vs heq hneg => ?_, fun us u t vs heq hnone hbig => ?_, fun hm => ?_⟩
    · have heq' : ts = (us ++ [u]) ++ t :: vs := by simpa using heq
      have hbefore := h.named us u (t :: vs) heq
      have hafter := h.named (us ++ [u]) t vs heq'
      rw [List.append_assoc, observeAll_zeros] at hbefore hafter
      rw [((hsplit heq').opens file hz).2.1 (not_passes_of_negative hneg), hbefore] at hafter
      exact fileOf_inj hz (htimes u (by simp [heq])).1 (htimes t (by simp [heq])).1 hafter
    · have heq' : ts = (us ++ [u]) ++ t :: vs := by simpa using heq
      have hpass : Passes tz (us ++ [u]) t := Or.inr ⟨hnone, u, by simp, Or.inl hbig⟩
      have hreopens := ((hsplit heq').opens file hz).2.2.mpr hpass
      rcases h.reopened (us ++ [u]) t vs heq' (by rwa [observeAll_zeros]) with hnil | ⟨w, hw, hne⟩
      · simp at hnil
      · obtain rfl : u = w := by simpa using hw
        exact hne
    · by_contra hnone
      have hpass := passes_infinity hz htimes fun v hv hneg => hnone ⟨v, hv, hneg⟩
      refine h.infinities 0 hm ?_
      rw [List.append_assoc, observeAll_zeros, List.replicate_zero, List.append_nil]
      exact ((forward_infinities hfwd 1).opens file hz).2.2.mpr hpass
  · intro h
    refine ⟨fun k _ => ?_, fun us t vs heq => ?_, fun us t vs heq hreopens => ?_, fun k hk => ?_,
      fun t ht => ?_⟩
    · rw [Reopens, observe_zero]
      exact fun hne => hne rfl
    · rw [List.append_assoc, observeAll_zeros]
      exact h.named hz hfwd heq
    · rw [observeAll_zeros] at hreopens
      rcases ((hsplit heq).opens file hz).2.2.mp hreopens with hnil | ⟨hnone, u, hu, hor⟩
      · exact Or.inl hnil
      · refine Or.inr ⟨u, hu, ?_⟩
        obtain ⟨us, rfl⟩ := List.getLast?_eq_some_iff.mp hu
        rcases hor with hbig | hne
        · exact h.lost us u t vs (by simpa using heq) hnone hbig
        · exact hne
    · obtain ⟨v, hv, hneg⟩ := h.shutdown (Nat.zero_lt_of_lt hk)
      have hfwd' := forward_infinities hfwd (k + 1)
      rw [List.replicate_succ', ← List.append_assoc] at hfwd'
      rw [List.append_assoc, observeAll_zeros, (hfwd'.opens file hz).2.2]
      exact not_passes_of_negative ⟨v, List.mem_append_left _ hv, hneg⟩
    · rw [List.append_assoc, observeAll_zeros]
      exact h.flushed hz hfwd ht (Nat.le_refl m)

/-- Before January 2038, and without a shutdown, all is well. -/
lemma trackable_of_early (hz : Zone tz) (hlate : ∀ t ∈ ts, 172800000000 ≤ t.toNat)
    (h : ∀ t ∈ ts, localSecond tz t < 2 ^ 31) : Trackable tz ts 0 := by
  have hnone : ∀ v ∈ ts, ¬ Negative tz v := by
    intro v hv
    have hlt := h v hv
    have hbounds := localSecond_bounds hz (hlate v hv)
    rw [Negative]
    omega
  refine ⟨?_, ?_, fun hm => absurd hm (Nat.lt_irrefl 0)⟩
  · rintro us u t vs rfl ⟨v, hv, hneg⟩
    refine absurd hneg (hnone v ?_)
    rw [List.append_cons]
    exact List.mem_append_left _ hv
  · rintro us u t vs rfl - hbig
    have hlt := h u (by simp)
    omega

/-- One packet, and another one an hour later, in a zone one hour east. -/
theorem follows_iff_trackable_two : Follows 3600 "" 1 [1700000000000000, 1700003600000000] 0 := by
  have hz : Zone 3600 := ⟨by decide, by decide⟩
  have htimes : ∀ t ∈ [1700000000000000, 1700003600000000], PacketTime t := by
    simp only [List.mem_cons, List.not_mem_nil, or_false, forall_eq_or_imp, forall_eq, PacketTime]
    decide +kernel
  have hearly : ∀ t ∈ [1700000000000000, 1700003600000000], localSecond 3600 t < 2 ^ 31 := by
    simp only [List.mem_cons, List.not_mem_nil, or_false, forall_eq_or_imp, forall_eq, localSecond]
    decide +kernel
  refine (follows_iff_trackable hz htimes (by decide +kernel) "" 1 0).mpr ?_
  exact trackable_of_early hz (fun t ht => (htimes t ht).1) hearly

/-- The marker the shutdown leaves is taken for a time: the file is changed although no packet came. -/
theorem shutdown_reopens_file :
    Zone 0 ∧ PacketTime 1700000000000000
      ∧ Reopens 0 (observeAll 0 (.start "") [1700000000000000]) infinity
      ∧ ¬ Follows 0 "" 0 [1700000000000000] 1 := by
  have hreopens : Reopens 0 (observeAll 0 (.start "") [1700000000000000]) infinity := by
    rw [Reopens]
    decide +kernel
  have htime : PacketTime 1700000000000000 := by
    rw [PacketTime]
    decide +kernel
  exact ⟨⟨by decide, by decide⟩, htime, hreopens, fun h => h.infinities 0 Nat.one_pos hreopens⟩

end Loop

end Flow
