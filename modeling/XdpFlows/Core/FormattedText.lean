import Mathlib.Data.List.Basic
import Mathlib.Data.List.SplitBy
import Mathlib.Data.Nat.Digits.Defs

/-!
# Numbers in formatted text

What `printf` writes for a format of decimal and hexadecimal conversions, and how the numbers are read
back from the words between the separators.  `ofDecimal_zeroPadded` and `ofHex_zeroPadded` are the
round trips, whatever the width a number is filled up to, and `splitOnP_word` takes the first word off
a text.  `lines_flatten` takes a text of formatted lines apart.
-/

namespace FormattedText

/-! ## Writing -/

/-- `%u` and `%X`. -/
def decimal (n : ℕ) : List Char :=
  Nat.toDigits 10 n

def hex (n : ℕ) : List Char :=
  (Nat.toDigits 16 n).map Char.toUpper

/-- Filling up with zeros, as the flag `0` and a width say. -/
def zeroPadded (width : ℕ) (digits : List Char) : List Char :=
  List.replicate (width - digits.length) '0' ++ digits

/-- A piece of a format: a character or a conversion. -/
inductive Conv where
  | lit (c : Char)
  | u
  | zeroU (width : ℕ)
  | zeroX (width : ℕ)
deriving DecidableEq, Repr

/-- `fprintf`.  A conversion without an argument, which C leaves undefined, ends the text. -/
def fprintf : List Conv → List ℕ → List Char
  | [], _ => []
  | .lit c :: format, args => c :: fprintf format args
  | .u :: format, n :: args => decimal n ++ fprintf format args
  | .zeroU width :: format, n :: args => zeroPadded width (decimal n) ++ fprintf format args
  | .zeroX width :: format, n :: args => zeroPadded width (hex n) ++ fprintf format args
  | _ :: _, [] => []

/-! ## Reading -/

def ofDecimal (word : List Char) : ℕ :=
  Nat.ofDigitChars 10 word 0

/-- The value of a hexadecimal digit. -/
def hexValue (c : Char) : ℕ :=
  if c.isDigit then c.toNat - 48 else c.toNat - 55

def ofHex (word : List Char) : ℕ :=
  word.foldl (fun n c => 16 * n + hexValue c) 0

lemma hexValue_digit : ∀ d < 16, hexValue d.digitChar.toUpper = d := by
  decide

lemma isAlphanum_digit : ∀ d < 16, d.digitChar.toUpper.isAlphanum = true := by
  decide

lemma hex_of_lt {d : ℕ} (h : d < 16) : hex d = [d.digitChar.toUpper] := by
  rw [hex, Nat.toDigits_of_lt_base h, List.map_singleton]

/-- The last digit comes off the end. -/
lemma hex_eq_append {n : ℕ} (h : 16 ≤ n) : hex n = hex (n / 16) ++ hex (n % 16) := by
  have hd : n % 16 < 16 := Nat.mod_lt _ (by decide)
  rw [hex, Nat.toDigits_of_base_le (by decide) h, List.map_append, hex_of_lt hd]
  rfl

@[simp] lemma ofDecimal_decimal (n : ℕ) : ofDecimal (decimal n) = n :=
  Nat.ofDigitChars_ten_toDigits

@[simp] lemma ofHex_hex (n : ℕ) : ofHex (hex n) = n := by
  induction n using Nat.strongRecOn with
  | ind n ih =>
      rcases Nat.lt_or_ge n 16 with hlt | hge
      · rw [hex_of_lt hlt]
        simp [ofHex, hexValue_digit n hlt]
      · have hd : n % 16 < 16 := Nat.mod_lt _ (by decide)
        rw [hex_eq_append hge, ofHex, List.foldl_append]
        have hhead := ih (n / 16) (by omega)
        rw [ofHex] at hhead
        rw [hhead, hex_of_lt hd]
        simp only [List.foldl_cons, List.foldl_nil, hexValue_digit _ hd]
        omega

@[simp] lemma ofDecimal_zeroPadded (width n : ℕ) :
    ofDecimal (zeroPadded width (decimal n)) = n := by
  rw [ofDecimal, zeroPadded, Nat.ofDigitChars_append, Nat.ofDigitChars_replicate_zero, Nat.mul_zero]
  exact ofDecimal_decimal n

@[simp] lemma ofHex_zeroPadded (width n : ℕ) : ofHex (zeroPadded width (hex n)) = n := by
  have hzeros : ∀ k, (List.replicate k '0').foldl (fun n c => 16 * n + hexValue c) 0 = 0 := by
    intro k
    induction k with
    | zero => rfl
    | succ k ih =>
        rw [List.replicate_succ, List.foldl_cons]
        exact ih
  rw [ofHex, zeroPadded, List.foldl_append, hzeros]
  exact ofHex_hex n

/-! ## Words -/

section Words

variable {separator : Char → Bool}

/-- The separators are not among what numbers are written with. -/
def Plain (separator : Char → Bool) : Prop :=
  ∀ c : Char, c.isAlphanum → separator c = false

/-- A text without separators. -/
def Word (separator : Char → Bool) (word : List Char) : Prop :=
  ∀ c ∈ word, separator c = false

lemma word_cons {c : Char} {word : List Char} (hc : separator c = false)
    (h : Word separator word) : Word separator (c :: word) := by
  simp [Word, hc] at h ⊢
  exact h

lemma word_decimal (h : Plain separator) (n : ℕ) : Word separator (decimal n) := by
  intro c hc
  have hdigit : c.isDigit := Nat.isDigit_of_mem_toDigits (by decide) (by decide) hc
  exact h c (by simp [Char.isAlphanum, hdigit])

lemma word_hex (h : Plain separator) (n : ℕ) : Word separator (hex n) := by
  have hdigit : ∀ d < 16, Word separator (hex d) := by
    intro d hd
    rw [hex_of_lt hd]
    simpa [Word] using h _ (isAlphanum_digit d hd)
  induction n using Nat.strongRecOn with
  | ind n ih =>
      rcases Nat.lt_or_ge n 16 with hlt | hge
      · exact hdigit n hlt
      · have hd : n % 16 < 16 := Nat.mod_lt _ (by decide)
        rw [hex_eq_append hge]
        exact List.forall_mem_append.mpr ⟨ih (n / 16) (by omega), hdigit _ hd⟩

lemma word_zeroPadded (h : Plain separator) (width : ℕ) {digits : List Char}
    (hdigits : Word separator digits) : Word separator (zeroPadded width digits) := by
  intro c hc
  rcases List.mem_append.mp hc with hzero | hmem
  · rw [List.eq_of_mem_replicate hzero]
    exact h '0' (by decide)
  · exact hdigits c hmem

/-- The first word of a text. -/
lemma splitOnP_word {word : List Char} (h : Word separator word) {c : Char} (hc : separator c = true)
    (text : List Char) :
    (word ++ c :: text).splitOnP separator = word :: text.splitOnP separator :=
  List.splitOnP_append_cons_of_forall_mem h c hc text

/-- Nothing but the characters of a format is a separator. -/
lemma word_fprintf (h : Plain separator) {format : List Conv}
    (hlit : ∀ c, Conv.lit c ∈ format → separator c = false) (args : List ℕ) :
    Word separator (fprintf format args) := by
  have happend : ∀ {word text : List Char}, Word separator word → Word separator text →
      Word separator (word ++ text) := fun hw ht => List.forall_mem_append.mpr ⟨hw, ht⟩
  induction format generalizing args with
  | nil => simp [fprintf, Word]
  | cons conv format ih =>
      have hrest := ih fun c hc => hlit c (List.mem_cons_of_mem _ hc)
      cases conv with
      | lit c => exact word_cons (hlit c (List.mem_cons_self ..)) (hrest args)
      | u =>
          cases args with
          | nil => simp [fprintf, Word]
          | cons n args => exact happend (word_decimal h n) (hrest args)
      | zeroU width =>
          cases args with
          | nil => simp [fprintf, Word]
          | cons n args => exact happend (word_zeroPadded h width (word_decimal h n)) (hrest args)
      | zeroX width =>
          cases args with
          | nil => simp [fprintf, Word]
          | cons n args => exact happend (word_zeroPadded h width (word_hex h n)) (hrest args)

end Words

/-! ## Lines -/

/-- Whether a conversion takes an argument. -/
def Conv.takes : Conv → Bool
  | .lit _ => false
  | _ => true

/-- A character at the end of the format, when there are arguments enough. -/
lemma fprintf_concat_lit (c : Char) {format : List Conv} {args : List ℕ}
    (h : format.countP Conv.takes ≤ args.length) :
    fprintf (format ++ [.lit c]) args = fprintf format args ++ [c] := by
  induction format generalizing args with
  | nil => rfl
  | cons conv format ih =>
      cases conv with
      | lit d =>
          rw [List.countP_cons] at h
          exact congrArg (d :: ·) (ih h)
      | u =>
          cases args with
          | nil => simp [Conv.takes] at h
          | cons n args =>
              simp only [List.countP_cons, Conv.takes, if_true, List.length_cons] at h
              rw [List.cons_append, fprintf, fprintf, ih (by omega), List.append_assoc]
      | zeroU width =>
          cases args with
          | nil => simp [Conv.takes] at h
          | cons n args =>
              simp only [List.countP_cons, Conv.takes, if_true, List.length_cons] at h
              rw [List.cons_append, fprintf, fprintf, ih (by omega), List.append_assoc]
      | zeroX width =>
          cases args with
          | nil => simp [Conv.takes] at h
          | cons n args =>
              simp only [List.countP_cons, Conv.takes, if_true, List.length_cons] at h
              rw [List.cons_append, fprintf, fprintf, ih (by omega), List.append_assoc]

/-- The end of a line. -/
def isNewline (c : Char) : Bool :=
  c = '\n'

/-- A line with its end. -/
def Line (line : List Char) : Prop :=
  ∃ word, Word isNewline word ∧ line = word ++ ['\n']

/-- The lines of a text, each with its end. -/
def lines (text : List Char) : List (List Char) :=
  text.splitBy fun c _ => !isNewline c

lemma Line.isChain {line : List Char} (h : Line line) :
    line.IsChain fun c _ => (!isNewline c) = true := by
  obtain ⟨word, hword, rfl⟩ := h
  induction word with
  | nil => exact List.isChain_singleton _
  | cons c word ih =>
      obtain ⟨hc, hrest⟩ := List.forall_mem_cons.mp hword
      rw [List.cons_append, List.isChain_cons]
      exact ⟨fun _ _ => by rw [hc]; rfl, ih hrest⟩

/-- **A text of lines is taken apart.** -/
lemma lines_flatten {ls : List (List Char)} (h : ∀ l ∈ ls, Line l) : lines ls.flatten = ls := by
  have hne : ∀ {l : List Char}, Line l → l ≠ [] := by
    rintro l ⟨word, -, rfl⟩
    simp
  refine List.splitBy_flatten (fun hnil => hne (h _ hnil) rfl) (fun l hl => (h l hl).isChain) ?_
  refine List.Pairwise.isChain (List.pairwise_of_forall_mem_list fun l hl m hm => ?_)
  refine ⟨hne (h l hl), hne (h m hm), ?_⟩
  obtain ⟨word, -, rfl⟩ := h l hl
  rw [List.getLast_append_singleton]
  rfl

end FormattedText
