import Mathlib.Algebra.Group.Nat.Defs
import Mathlib.Data.Int.Notation
import Mathlib.Data.List.Basic
import Mathlib.Logic.Function.Basic

/-!
# A small eBPF machine

Straight-line and branching eBPF programs over a stack, a context and helper calls.  Instructions are
the encoded `struct bpf_insn`; `step` decodes the opcode byte.  The machine is the cautious one a
verifier has in mind: registers and stack bytes start out uninitialised, a helper call leaves `r1` to
`r5` uninitialised, pointers are not numbers, and whatever is not allowed is a fault.

`Arrives` is the execution from one machine to another in a number of steps.  Its rules, one for each
instruction form, are how a program is walked through (`Arrives.mov64Imm`, `Arrives.call` and so on);
`Arrives.exits` turns a walk into a statement about `run`.
-/

namespace Ebpf

/-! ## Instructions -/

/-- `struct bpf_insn`. -/
structure BpfInsn where
  code : UInt8
  dstReg : ℕ
  srcReg : ℕ
  off : ℤ
  imm : ℤ
deriving DecidableEq, Repr

/-- `BPF_LDX_MEM(BPF_W, DST, SRC, OFF)`. -/
def ldxMemW (dst src : ℕ) (off : ℤ) : BpfInsn := ⟨0x01 ||| 0x00 ||| 0x60, dst, src, off, 0⟩

/-- `BPF_STX_MEM(BPF_W, DST, SRC, OFF)`. -/
def stxMemW (dst src : ℕ) (off : ℤ) : BpfInsn := ⟨0x03 ||| 0x00 ||| 0x60, dst, src, off, 0⟩

/-- `BPF_LD_MAP_FD(DST, MAP_FD)`, an instruction of two slots. -/
def ldMapFd (dst : ℕ) (fd : ℤ) : List BpfInsn :=
  [⟨0x00 ||| 0x18 ||| 0x00, dst, 1, 0, fd⟩, ⟨0, 0, 0, 0, 0⟩]

/-- `BPF_MOV64_IMM(DST, IMM)`. -/
def mov64Imm (dst : ℕ) (imm : ℤ) : BpfInsn := ⟨0x07 ||| 0xb0 ||| 0x00, dst, 0, 0, imm⟩

/-- `BPF_MOV64_REG(DST, SRC)`. -/
def mov64Reg (dst src : ℕ) : BpfInsn := ⟨0x07 ||| 0xb0 ||| 0x08, dst, src, 0, 0⟩

/-- `BPF_ALU64_IMM(BPF_ADD, DST, IMM)`. -/
def add64Imm (dst : ℕ) (imm : ℤ) : BpfInsn := ⟨0x07 ||| 0x00 ||| 0x00, dst, 0, 0, imm⟩

/-- `BPF_JMP_IMM(BPF_JEQ, DST, IMM, OFF)`. -/
def jeqImm (dst : ℕ) (imm off : ℤ) : BpfInsn := ⟨0x05 ||| 0x10 ||| 0x00, dst, 0, off, imm⟩

/-- `BPF_JMP32_IMM(BPF_JSGT, DST, IMM, OFF)`. -/
def jsgt32Imm (dst : ℕ) (imm off : ℤ) : BpfInsn := ⟨0x06 ||| 0x60 ||| 0x00, dst, 0, off, imm⟩

/-- `BPF_EMIT_CALL(FUNC)`. -/
def emitCall (func : ℤ) : BpfInsn := ⟨0x05 ||| 0x80, 0, 0, 0, func⟩

/-- `BPF_EXIT_INSN()`. -/
def exitInsn : BpfInsn := ⟨0x05 ||| 0x90, 0, 0, 0, 0⟩

/-- The operations of the opcodes above. -/
inductive Op where
  | ldxMemW | stxMemW | ldImm64 | mov64Imm | mov64Reg | add64Imm | jeqImm | jsgt32Imm | call | exit
deriving DecidableEq, Repr

/-- The operation of an opcode byte. -/
def opOf (code : UInt8) : Option Op :=
  match code with
  | 0x61 => some .ldxMemW
  | 0x63 => some .stxMemW
  | 0x18 => some .ldImm64
  | 0xb7 => some .mov64Imm
  | 0xbf => some .mov64Reg
  | 0x07 => some .add64Imm
  | 0x15 => some .jeqImm
  | 0x66 => some .jsgt32Imm
  | 0x85 => some .call
  | 0x95 => some .exit
  | _ => none

/-! ## Values and machines -/

/-- What a register can hold. -/
inductive Value where
  | scalar (w : UInt64)
  | ctx
  /-- The address `off` bytes above the top of the stack, which `r10` points at. -/
  | frame (off : ℤ)
  | map (fd : ℤ)
  /-- The address of a value in a map. -/
  | element
deriving DecidableEq, Repr

/-- The state of a running program; `σ` is what the helpers act on. -/
structure Machine (σ : Type) where
  pc : ℤ
  regs : ℕ → Option Value
  stack : ℤ → Option UInt8
  world : σ

/-- What is around a program: the 32-bit fields of its context, and the helpers, which get the
registers and the stack. -/
structure Surroundings (σ : Type) where
  ctxField : ℤ → Option UInt32
  helper : ℤ → (ℕ → Option Value) → (ℤ → Option UInt8) → σ → Option (Value × σ)

/-- Byte `i` of a word, the lowest one being byte `0`. -/
def byteOf (w : UInt32) (i : ℕ) : UInt8 :=
  UInt8.ofNat (w.toNat / 256 ^ i)

/-- The word with these bytes. -/
def wordOf (b0 b1 b2 b3 : UInt8) : UInt32 :=
  UInt32.ofNat (b0.toNat + 256 * b1.toNat + 65536 * b2.toNat + 16777216 * b3.toNat)

lemma wordOf_byteOf (w : UInt32) :
    wordOf (byteOf w 0) (byteOf w 1) (byteOf w 2) (byteOf w 3) = w := by
  have hw := w.toNat_lt
  refine UInt32.toNat.inj ?_
  simp only [wordOf, byteOf, UInt8.toNat_ofNat', UInt32.toNat_ofNat']
  omega

/-- The size of the stack. -/
def stackSize : ℤ := 512

/-- A 32-bit word of the stack, if all its bytes have been written. -/
def loadWord (stack : ℤ → Option UInt8) (off : ℤ) : Option UInt32 := do
  let b0 ← stack off
  let b1 ← stack (off + 1)
  let b2 ← stack (off + 2)
  let b3 ← stack (off + 3)
  return wordOf b0 b1 b2 b3

/-- The stack with a 32-bit word written. -/
def storeWord (stack : ℤ → Option UInt8) (off : ℤ) (w : UInt32) : ℤ → Option UInt8 :=
  fun i => if off ≤ i ∧ i < off + 4 then some (byteOf w (i - off).toNat) else stack i

lemma loadWord_storeWord (stack : ℤ → Option UInt8) (off : ℤ) (w : UInt32) :
    loadWord (storeWord stack off w) off = some w := by
  have hbyte : ∀ i : ℕ, i < 4 → storeWord stack off w (off + i) = some (byteOf w i) := by
    intro i hi
    rw [storeWord, if_pos ⟨by omega, by omega⟩, show off + (i : ℤ) - off = i by omega, Int.toNat_natCast]
  have h0 : storeWord stack off w off = some (byteOf w 0) := by
    have := hbyte 0 (by omega)
    rwa [Int.natCast_zero, Int.add_zero] at this
  have h1 : storeWord stack off w (off + 1) = some (byteOf w 1) := hbyte 1 (by omega)
  have h2 : storeWord stack off w (off + 2) = some (byteOf w 2) := hbyte 2 (by omega)
  have h3 : storeWord stack off w (off + 3) = some (byteOf w 3) := hbyte 3 (by omega)
  simp only [loadWord, h0, h1, h2, h3, Option.bind_eq_bind, Option.bind_some, Option.pure_def,
    wordOf_byteOf]

/-- `off` is the offset of a 32-bit word of the stack. -/
def InStack (off : ℤ) : Prop :=
  -stackSize ≤ off ∧ off + 4 ≤ 0

instance instDecidableInStack (off : ℤ) : Decidable (InStack off) :=
  inferInstanceAs (Decidable (_ ∧ _))

/-! ## Execution -/

/-- What one instruction leads to. -/
inductive Outcome (σ : Type) where
  | next (m : Machine σ)
  | exit (r0 : UInt64) (world : σ)
  | fault

variable {σ : Type}

/-- The 64-bit immediate: `imm`, sign-extended. -/
def immWord (imm : ℤ) : UInt64 :=
  UInt64.ofInt imm

/-- The machine with a register set, at the instruction `n` slots on. -/
def Machine.set (m : Machine σ) (dst : ℕ) (v : Value) (n : ℤ) : Machine σ :=
  { m with pc := m.pc + n, regs := Function.update m.regs dst (some v) }

/-- The machine after a conditional jump. -/
def Machine.jump (m : Machine σ) (taken : Bool) (off : ℤ) : Machine σ :=
  { m with pc := m.pc + 1 + if taken then off else 0 }

/-- The registers a helper call leaves: `r0` is the result, `r1` to `r5` are gone. -/
def afterCall (regs : ℕ → Option Value) (v : Value) : ℕ → Option Value :=
  fun r => if r = 0 then some v else if r ≤ 5 then none else regs r

/-- The instruction a machine is at. -/
def fetch (prog : List BpfInsn) (pc : ℤ) : Option BpfInsn :=
  if 0 ≤ pc then prog[pc.toNat]? else none

/-- The low 32 bits of a register as a signed number. -/
def signedWord (w : UInt64) : ℤ :=
  w.toUInt32.toInt32.toInt

/-- One decoded instruction. -/
def execute (s : Surroundings σ) (prog : List BpfInsn) (i : BpfInsn) (m : Machine σ) : Outcome σ :=
  match opOf i.code with
  | some .ldxMemW =>
      match m.regs i.srcReg with
      | some .ctx =>
          match s.ctxField i.off with
          | some w => .next (m.set i.dstReg (.scalar w.toUInt64) 1)
          | none => .fault
      | some (.frame off) =>
          if InStack (off + i.off) then
            match loadWord m.stack (off + i.off) with
            | some w => .next (m.set i.dstReg (.scalar w.toUInt64) 1)
            | none => .fault
          else .fault
      | _ => .fault
  | some .stxMemW =>
      match m.regs i.dstReg, m.regs i.srcReg with
      | some (.frame off), some (.scalar w) =>
          if InStack (off + i.off) then
            .next { m with pc := m.pc + 1, stack := storeWord m.stack (off + i.off) w.toUInt32 }
          else .fault
      | _, _ => .fault
  | some .ldImm64 =>
      match fetch prog (m.pc + 1) with
      | some i' =>
          -- `BPF_PSEUDO_MAP_FD` in the first slot, nothing but an immediate in the second
          if i'.code = 0 ∧ i.srcReg = 1 then .next (m.set i.dstReg (.map i.imm) 2) else .fault
      | none => .fault
  | some .mov64Imm => .next (m.set i.dstReg (.scalar (immWord i.imm)) 1)
  | some .mov64Reg =>
      match m.regs i.srcReg with
      | some v => .next (m.set i.dstReg v 1)
      | none => .fault
  | some .add64Imm =>
      match m.regs i.dstReg with
      | some (.scalar w) => .next (m.set i.dstReg (.scalar (w + immWord i.imm)) 1)
      | some (.frame off) => .next (m.set i.dstReg (.frame (off + i.imm)) 1)
      | _ => .fault
  | some .jeqImm =>
      match m.regs i.dstReg with
      | some (.scalar w) => .next (m.jump (w == immWord i.imm) i.off)
      | some .element => if i.imm = 0 then .next (m.jump false i.off) else .fault
      | _ => .fault
  | some .jsgt32Imm =>
      match m.regs i.dstReg with
      | some (.scalar w) => .next (m.jump (decide (i.imm < signedWord w)) i.off)
      | _ => .fault
  | some .call =>
      match s.helper i.imm m.regs m.stack m.world with
      | some (v, world) =>
          .next { m with pc := m.pc + 1, regs := afterCall m.regs v, world := world }
      | none => .fault
  | some .exit =>
      match m.regs 0 with
      | some (.scalar w) => .exit w m.world
      | _ => .fault
  | none => .fault

/-- One step. -/
def step (s : Surroundings σ) (prog : List BpfInsn) (m : Machine σ) : Outcome σ :=
  match fetch prog m.pc with
  | some i => execute s prog i m
  | none => .fault

/-- At most `fuel` steps; `none` if the program has not come to its end or has faulted. -/
def run (s : Surroundings σ) (prog : List BpfInsn) : ℕ → Machine σ → Option (UInt64 × σ)
  | 0, _ => none
  | fuel + 1, m =>
      match step s prog m with
      | .next m' => run s prog fuel m'
      | .exit r0 world => some (r0, world)
      | .fault => none

/-- The machine a program starts in: `r1` is the context and `r10` the top of the stack. -/
def start (world : σ) : Machine σ where
  pc := 0
  regs := fun r => if r = 1 then some .ctx else if r = 10 then some (.frame 0) else none
  stack := fun _ => none
  world := world

/-! ## Walking through a program -/

/-- `n` steps lead from one machine to another. -/
inductive Arrives (s : Surroundings σ) (prog : List BpfInsn) : ℕ → Machine σ → Machine σ → Prop where
  | refl (m : Machine σ) : Arrives s prog 0 m m
  | tail {n : ℕ} {m m' m'' : Machine σ} (h : Arrives s prog n m m') (hs : step s prog m' = .next m'') :
      Arrives s prog (n + 1) m m''

section Rules

variable {s : Surroundings σ} {prog : List BpfInsn} {n : ℕ} {m m' : Machine σ}

lemma step_eq {i : BpfInsn} (hi : fetch prog m.pc = some i) : step s prog m = execute s prog i m := by
  rw [step, hi]

lemma run_arrives (h : Arrives s prog n m m') (fuel : ℕ) :
    run s prog (n + fuel) m = run s prog fuel m' := by
  induction h generalizing fuel with
  | refl m => rw [Nat.zero_add]
  | @tail n _ _ m'' _ hs ih =>
      rw [Nat.add_assoc, Nat.add_comm 1 fuel, ih (fuel + 1), run, hs]

namespace Arrives

lemma ldxCtx (h : Arrives s prog n m m') (dst src : ℕ) (off : ℤ) {w : UInt32}
    (hi : fetch prog m'.pc = some (ldxMemW dst src off)) (hsrc : m'.regs src = some .ctx)
    (hw : s.ctxField off = some w) :
    Arrives s prog (n + 1) m (m'.set dst (.scalar w.toUInt64) 1) := by
  refine h.tail ?_
  have hop : opOf (ldxMemW dst src off).code = some .ldxMemW := rfl
  rw [step_eq hi, execute, hop]
  simp only [ldxMemW, hsrc, hw]

lemma ldxStack (h : Arrives s prog n m m') (dst src : ℕ) (off : ℤ) {base : ℤ} {w : UInt32}
    (hi : fetch prog m'.pc = some (ldxMemW dst src off)) (hsrc : m'.regs src = some (.frame base))
    (hin : InStack (base + off)) (hw : loadWord m'.stack (base + off) = some w) :
    Arrives s prog (n + 1) m (m'.set dst (.scalar w.toUInt64) 1) := by
  refine h.tail ?_
  have hop : opOf (ldxMemW dst src off).code = some .ldxMemW := rfl
  rw [step_eq hi, execute, hop]
  simp only [ldxMemW, hsrc, hw, if_pos hin]

lemma stxStack (h : Arrives s prog n m m') (dst src : ℕ) (off : ℤ) {base : ℤ} {w : UInt64}
    (hi : fetch prog m'.pc = some (stxMemW dst src off)) (hdst : m'.regs dst = some (.frame base))
    (hsrc : m'.regs src = some (.scalar w)) (hin : InStack (base + off)) :
    Arrives s prog (n + 1) m
      { m' with pc := m'.pc + 1, stack := storeWord m'.stack (base + off) w.toUInt32 } := by
  refine h.tail ?_
  have hop : opOf (stxMemW dst src off).code = some .stxMemW := rfl
  rw [step_eq hi, execute, hop]
  simp only [stxMemW, hdst, hsrc, hin, if_true]

lemma ldMap (h : Arrives s prog n m m') (dst : ℕ) (fd : ℤ) {i i' : BpfInsn}
    (hi : fetch prog m'.pc = some i) (hi' : fetch prog (m'.pc + 1) = some i')
    (heq : [i, i'] = ldMapFd dst fd) : Arrives s prog (n + 1) m (m'.set dst (.map fd) 2) := by
  refine h.tail ?_
  obtain ⟨rfl, rfl⟩ : i = ⟨0x00 ||| 0x18 ||| 0x00, dst, 1, 0, fd⟩ ∧ i' = ⟨0, 0, 0, 0, 0⟩ := by
    simpa [ldMapFd] using heq
  have hop : opOf (0x00 ||| 0x18 ||| 0x00) = some .ldImm64 := rfl
  rw [step_eq hi, execute, hop, hi']
  rfl

lemma mov64Imm (h : Arrives s prog n m m') (dst : ℕ) (imm : ℤ)
    (hi : fetch prog m'.pc = some (Ebpf.mov64Imm dst imm)) :
    Arrives s prog (n + 1) m (m'.set dst (.scalar (immWord imm)) 1) := by
  refine h.tail ?_
  rw [step_eq hi]
  rfl

lemma mov64Reg (h : Arrives s prog n m m') (dst src : ℕ) {v : Value}
    (hi : fetch prog m'.pc = some (Ebpf.mov64Reg dst src)) (hsrc : m'.regs src = some v) :
    Arrives s prog (n + 1) m (m'.set dst v 1) := by
  refine h.tail ?_
  have hop : opOf (Ebpf.mov64Reg dst src).code = some .mov64Reg := rfl
  rw [step_eq hi, execute, hop]
  simp only [Ebpf.mov64Reg, hsrc]

lemma add64Frame (h : Arrives s prog n m m') (dst : ℕ) (imm : ℤ) {base : ℤ}
    (hi : fetch prog m'.pc = some (add64Imm dst imm)) (hdst : m'.regs dst = some (.frame base)) :
    Arrives s prog (n + 1) m (m'.set dst (.frame (base + imm)) 1) := by
  refine h.tail ?_
  have hop : opOf (add64Imm dst imm).code = some .add64Imm := rfl
  rw [step_eq hi, execute, hop]
  simp only [add64Imm, hdst]

lemma jeqScalar (h : Arrives s prog n m m') (dst : ℕ) (imm off : ℤ) {w : UInt64}
    (hi : fetch prog m'.pc = some (jeqImm dst imm off)) (hdst : m'.regs dst = some (.scalar w)) :
    Arrives s prog (n + 1) m (m'.jump (w == immWord imm) off) := by
  refine h.tail ?_
  have hop : opOf (jeqImm dst imm off).code = some .jeqImm := rfl
  rw [step_eq hi, execute, hop]
  simp only [jeqImm, hdst]

/-- A pointer into a map is not null. -/
lemma jeqElement (h : Arrives s prog n m m') (dst : ℕ) (off : ℤ)
    (hi : fetch prog m'.pc = some (jeqImm dst 0 off)) (hdst : m'.regs dst = some .element) :
    Arrives s prog (n + 1) m (m'.jump false off) := by
  refine h.tail ?_
  have hop : opOf (jeqImm dst 0 off).code = some .jeqImm := rfl
  rw [step_eq hi, execute, hop]
  simp only [jeqImm, hdst, if_true]

lemma jsgt32 (h : Arrives s prog n m m') (dst : ℕ) (imm off : ℤ) {w : UInt64}
    (hi : fetch prog m'.pc = some (jsgt32Imm dst imm off)) (hdst : m'.regs dst = some (.scalar w)) :
    Arrives s prog (n + 1) m (m'.jump (decide (imm < signedWord w)) off) := by
  refine h.tail ?_
  have hop : opOf (jsgt32Imm dst imm off).code = some .jsgt32Imm := rfl
  rw [step_eq hi, execute, hop]
  simp only [jsgt32Imm, hdst]
  rfl

lemma call (h : Arrives s prog n m m') (func : ℤ) (v : Value) (world : σ)
    (hi : fetch prog m'.pc = some (emitCall func))
    (hcall : s.helper func m'.regs m'.stack m'.world = some (v, world)) :
    Arrives s prog (n + 1) m
      { m' with pc := m'.pc + 1, regs := afterCall m'.regs v, world := world } := by
  refine h.tail ?_
  have hop : opOf (emitCall func).code = some .call := rfl
  rw [step_eq hi, execute, hop]
  simp only [emitCall, hcall]

/-- **The end of a walk.** -/
lemma exits (h : Arrives s prog n m m') {w : UInt64} (hi : fetch prog m'.pc = some exitInsn)
    (hr : m'.regs 0 = some (.scalar w)) {fuel : ℕ} (hfuel : n < fuel) :
    run s prog fuel m = some (w, m'.world) := by
  obtain ⟨k, rfl⟩ : ∃ k, fuel = n + (k + 1) := ⟨fuel - n - 1, by omega⟩
  have hop : opOf exitInsn.code = some .exit := rfl
  have hstep : step s prog m' = .exit w m'.world := by
    rw [step_eq hi, execute, hop, hr]
  rw [run_arrives h, run, hstep]

end Arrives

end Rules

end Ebpf
