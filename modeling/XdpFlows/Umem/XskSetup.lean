import Mathlib.Algebra.BigOperators.Group.List.Basic
import Mathlib.Algebra.Order.BigOperators.Group.List
import Mathlib.Data.List.Count
import Mathlib.Logic.Relation
import XdpFlows.Core.Ledger

/-!
# Setting a socket up and taking it down

`xsk_umem__create`, `xsk_socket__create` and their counterparts in `libbpf/src/xsk.c`, with every call to
the system that may fail and the labels at the end of each function that clean up after it.  What the
process holds is kept in an account (`Ledger`): memory, file descriptors and mappings.

`every_resource_has_an_owner`: after any calls with any answers of the system, each resource held belongs
to one UMEM or socket, but for what four of the cleanups forget; and the reference count of a UMEM is the
number of its sockets, but for the references one of them forgets.

`refused_socket_keeps_the_umem`: once `socket` has been refused for a further socket on a UMEM,
`xsk_umem__delete` never deletes it again.
-/

namespace Xsk

open Ledger Routine

/-! ## Data -/

/-- What the functions hold of the system. -/
inductive Resource where
  | heap (name : ℕ)
  | fd (name : ℕ)
  | mapping (name : ℕ)
deriving DecidableEq, Repr

instance Resource.instNamed : Named Resource where
  name
    | .heap name => name
    | .fd name => name
    | .mapping name => name

/-- `struct xsk_umem`, but for the reference count; the mappings are those of the fill and of the
completion ring. -/
structure XskUmem where
  heap : ℕ
  fd : ℕ
  fill : ℕ
  comp : ℕ
deriving DecidableEq, Repr

/-- `struct xsk_socket`.  `prog` are `prog_fd` and `xsks_map_fd`, unless `prog_fd` is -1. -/
structure XskSocket where
  heap : ℕ
  fd : ℕ
  umem : XskUmem
  rx : Option ℕ
  tx : Option ℕ
  prog : Option (ℕ × ℕ)
deriving DecidableEq, Repr

/-- What a cleanup forgets. -/
inductive Note where
  /-- `out_mmap` of `xsk_umem__create` unmaps `MAP_FAILED`, and not the fill ring. -/
  | fillRingLost (map : ℕ)
  /-- `xsk_socket__create` has counted a reference and goes to `out_xsk_alloc`. -/
  | referenceLost (umem : XskUmem)
  /-- The offsets cannot be read, so a ring is not unmapped. -/
  | ringLost (map : ℕ)
  /-- `xsk_lookup_bpf_maps` finds a second map of the name. -/
  | mapFdLost (fd : ℕ)
  /-- `xsk_get_mmap_offsets` returns an error and sets no `errno`. -/
  | errnoUnset
deriving DecidableEq, Repr

def enoent : ℤ := 2
def enomem : ℤ := 12
def efault : ℤ := 14
def ebusy : ℤ := 16
def einval : ℤ := 22
def eopnotsupp : ℕ := 95

/-- The calls of this file. -/
abbrev Call (α : Type) : Type :=
  Routine Resource Note α

def calloc : Call (Except ℕ ℕ) := acquire .heap
def socket : Call (Except ℕ ℕ) := acquire .fd
def mmap : Call (Except ℕ ℕ) := acquire .mapping
def free (p : ℕ) : Call Unit := release (.heap p)
def close (fd : ℕ) : Call Unit := release (.fd fd)
def munmap (map : ℕ) : Call Unit := release (.mapping map)

/-- `sizeof(struct xdp_mmap_offsets)`. -/
def sizeofMmapOffsets : ℕ := 128

/-- `sizeof(struct xdp_mmap_offsets_v1)`. -/
def sizeofMmapOffsetsV1 : ℕ := 96

/-- `xsk_get_mmap_offsets`.  Of an error its callers look at `errno` only, so that is what the error is
here; the call returns `optlen`. -/
def xskGetMmapOffsets : Call (Except ℕ Unit) := do
  match ← ask with
  | .error errno => return .error errno
  | .ok optlen =>
      if optlen = sizeofMmapOffsets ∨ optlen = sizeofMmapOffsetsV1 then
        return .ok ()
      else
        note .errnoUnset
        return .error (← lastErrno)

/-! ## UMEMs -/

namespace UmemCreate

/-- `out_umem_alloc`. -/
def outUmemAlloc (umem : ℕ) (err : ℤ) : Call (ℤ × Option XskUmem) := do
  free umem
  return (err, none)

/-- `out_socket`. -/
def outSocket (umem fd : ℕ) (err : ℤ) : Call (ℤ × Option XskUmem) := do
  close fd
  outUmemAlloc umem err

/-- `out_mmap`, which is come to when the second `mmap` has failed: `map` is `MAP_FAILED`, and
`munmap(map, …)` fails. -/
def outMmap (umem fd fill : ℕ) (err : ℤ) : Call (ℤ × Option XskUmem) := do
  note (.fillRingLost fill)
  outSocket umem fd err

end UmemCreate

open UmemCreate in
/-- `xsk_umem__create_v0_0_4`.  `missing`: one of the pointers is null; `aligned` is
`xsk_page_aligned(umem_area)`. -/
def xskUmemCreate (missing : Bool) (size : ℕ) (aligned : Bool) : Call (ℤ × Option XskUmem) :=
  if missing then
    return (-efault, none)
  else if size = 0 ∧ !aligned then
    return (-einval, none)
  else do
    match ← calloc with
    | .error _ => return (-enomem, none)
    | .ok umem =>
    match ← socket with
    | .error errno => outUmemAlloc umem (-errno)
    | .ok fd =>
    match ← ask with -- `XDP_UMEM_REG`
    | .error errno => outSocket umem fd (-errno)
    | .ok _ =>
    match ← ask with -- `XDP_UMEM_FILL_RING`
    | .error errno => outSocket umem fd (-errno)
    | .ok _ =>
    match ← ask with -- `XDP_UMEM_COMPLETION_RING`
    | .error errno => outSocket umem fd (-errno)
    | .ok _ =>
    match ← xskGetMmapOffsets with
    | .error errno => outSocket umem fd (-errno)
    | .ok _ =>
    match ← mmap with
    | .error errno => outSocket umem fd (-errno)
    | .ok fill =>
    match ← mmap with
    | .error errno => outMmap umem fd fill (-errno)
    | .ok comp => return (0, some ⟨umem, fd, fill, comp⟩)

/-- `xsk_umem__delete`, with the reference count. -/
def xskUmemDelete (umem : XskUmem) (refcount : ℕ) : Call ℤ :=
  if refcount ≠ 0 then
    return (-ebusy)
  else do
    match ← xskGetMmapOffsets with
    | .error _ =>
        note (.ringLost umem.fill)
        note (.ringLost umem.comp)
    | .ok _ =>
        munmap umem.fill
        munmap umem.comp
    close umem.fd
    free umem.heap
    return 0

/-! ## The default program and its map -/

/-- `xsk_get_max_queues`. -/
def xskGetMaxQueues : Call (Except ℤ ℕ) := do
  match ← socket with
  | .error errno => return .error (-errno)
  | .ok fd =>
      let answer ← ask -- `SIOCETHTOOL`
      close fd
      match answer with
      | .error errno => if errno = eopnotsupp then return .ok 1 else return .error (-errno)
      | .ok maxCombined => return .ok (if maxCombined = 0 then 1 else maxCombined)

/-- `xsk_create_bpf_maps`: `xsks_map_fd`. -/
def xskCreateBpfMaps : Call (Except ℤ ℕ) := do
  match ← xskGetMaxQueues with
  | .error err => return .error err
  | .ok _ =>
      match ← acquire .fd with -- `bpf_create_map_name`
      | .error _ => return .error (-1)
      | .ok fd => return .ok fd

/-- `xsk_delete_bpf_maps`. -/
def xskDeleteBpfMaps (xsksMapFd : ℕ) : Call Unit := do
  let _ ← ask -- `bpf_map_delete_elem`
  close xsksMapFd

/-- `xsk_load_xdp_prog`: `prog_fd`. -/
def xskLoadXdpProg : Call (Except ℤ ℕ) := do
  match ← acquire .fd with -- `bpf_load_program`
  | .error _ => return .error (-1)
  | .ok progFd =>
      match ← ask with -- `bpf_set_link_xdp_fd`
      | .error errno =>
          close progFd
          return .error (-errno)
      | .ok _ => return .ok progFd

/-- The loop of `xsk_lookup_bpf_maps`.  `found` is `xsks_map_fd`, unless that is -1. -/
def lookupLoop : ℕ → Option ℕ → Call (Option ℕ)
  | 0, found => return found
  | i + 1, found => do
      match ← acquire .fd with -- `bpf_map_get_fd_by_id`
      | .error _ => lookupLoop i found
      | .ok fd =>
          match ← ask with -- `bpf_obj_get_info_by_fd`: 1 if the name is `xsks_map`
          | .error _ =>
              close fd
              lookupLoop i found
          | .ok isXsksMap =>
              if isXsksMap = 1 then
                match found with
                | none => pure ()
                | some fd' => note (.mapFdLost fd')
                lookupLoop i (some fd)
              else
                close fd
                lookupLoop i found

/-- `xsk_lookup_bpf_maps`: `xsks_map_fd`. -/
def xskLookupBpfMaps : Call (Except ℤ ℕ) := do
  match ← ask with -- `bpf_obj_get_info_by_fd`
  | .error _ => return .error (-1)
  | .ok _ =>
  match ← calloc with
  | .error _ => return .error (-enomem)
  | .ok mapIds =>
  match ← ask with -- `bpf_obj_get_info_by_fd`: `nr_map_ids`
  | .error _ =>
      free mapIds
      return .error (-1)
  | .ok nrMapIds =>
      let found ← lookupLoop nrMapIds none
      free mapIds
      match found with
      | none => return .error (-enoent)
      | some fd => return .ok fd

/-- The end of `xsk_setup_xdp_prog`: `xsk_set_bpf_maps`, for a socket that receives. -/
def setBpfMaps (rx : Bool) (progFd xsksMapFd : ℕ) : Call (Except ℤ (ℕ × ℕ)) :=
  if rx then do
    match ← ask with -- `bpf_map_update_elem`
    | .error _ =>
        xskDeleteBpfMaps xsksMapFd
        close progFd
        return .error (-1)
    | .ok _ => return .ok (progFd, xsksMapFd)
  else
    return .ok (progFd, xsksMapFd)

/-- `xsk_setup_xdp_prog`: `prog_fd` and `xsks_map_fd`. -/
def xskSetupXdpProg (rx : Bool) : Call (Except ℤ (ℕ × ℕ)) := do
  match ← ask with -- `bpf_get_link_xdp_id`
  | .error errno => return .error (-errno)
  | .ok progId =>
      if progId = 0 then
        match ← xskCreateBpfMaps with
        | .error err => return .error err
        | .ok xsksMapFd =>
            match ← xskLoadXdpProg with
            | .error err =>
                xskDeleteBpfMaps xsksMapFd
                return .error err
            | .ok progFd => setBpfMaps rx progFd xsksMapFd
      else
        match ← acquire .fd with -- `bpf_prog_get_fd_by_id`
        | .error errno => return .error (-errno)
        | .ok progFd =>
            match ← xskLookupBpfMaps with
            | .error err =>
                close progFd
                return .error err
            | .ok xsksMapFd => setBpfMaps rx progFd xsksMapFd

/-! ## Sockets -/

namespace SocketCreate

/-- `out_xsk_alloc`. -/
def outXskAlloc (xsk : ℕ) (refcount : ℕ) (err : ℤ) : Call (ℤ × Option XskSocket × ℕ) := do
  free xsk
  return (err, none, refcount)

/-- `out_socket`. -/
def outSocket (x : XskSocket) (refcount : ℕ) (err : ℤ) : Call (ℤ × Option XskSocket × ℕ) :=
  if refcount - 1 ≠ 0 then do
    close x.fd
    outXskAlloc x.heap (refcount - 1) err
  else
    outXskAlloc x.heap (refcount - 1) err

/-- `out_mmap_rx`. -/
def outMmapRx (x : XskSocket) (refcount : ℕ) (err : ℤ) : Call (ℤ × Option XskSocket × ℕ) :=
  match x.rx with
  | none => outSocket x refcount err
  | some map => do
      munmap map
      outSocket x refcount err

/-- `out_mmap_tx`. -/
def outMmapTx (x : XskSocket) (refcount : ℕ) (err : ℤ) : Call (ℤ × Option XskSocket × ℕ) :=
  match x.tx with
  | none => outMmapRx x refcount err
  | some map => do
      munmap map
      outMmapRx x refcount err

/-- From `bind` on. -/
def bindSocket (inhibit : Bool) (x : XskSocket) (refcount : ℕ) : Call (ℤ × Option XskSocket × ℕ) := do
  match ← ask with -- `bind`
  | .error errno => outMmapTx x refcount (-errno)
  | .ok _ =>
      if inhibit then
        return (0, some x, refcount)
      else
        match ← xskSetupXdpProg x.rx.isSome with
        | .error err => outMmapTx x refcount err
        | .ok prog => return (0, some { x with prog := some prog }, refcount)

/-- From the mapping of the tx ring on. -/
def mapTx (inhibit tx : Bool) (x : XskSocket) (refcount : ℕ) : Call (ℤ × Option XskSocket × ℕ) :=
  if tx then do
    match ← mmap with
    | .error errno => outMmapRx x refcount (-errno)
    | .ok map => bindSocket inhibit { x with tx := some map } refcount
  else
    bindSocket inhibit x refcount

/-- From the mapping of the rx ring on. -/
def mapRx (inhibit rx tx : Bool) (x : XskSocket) (refcount : ℕ) :
    Call (ℤ × Option XskSocket × ℕ) :=
  if rx then do
    match ← mmap with
    | .error errno => outSocket x refcount (-errno)
    | .ok map => mapTx inhibit tx { x with rx := some map } refcount
  else
    mapTx inhibit tx x refcount

/-- From `xsk_get_mmap_offsets` on. -/
def readOffsets (inhibit rx tx : Bool) (x : XskSocket) (refcount : ℕ) :
    Call (ℤ × Option XskSocket × ℕ) := do
  match ← xskGetMmapOffsets with
  | .error errno => outSocket x refcount (-errno)
  | .ok _ => mapRx inhibit rx tx x refcount

/-- `setsockopt` for one of the rings, if there is one. -/
def setRing (ring : Bool) (x : XskSocket) (refcount : ℕ)
    (next : XskSocket → ℕ → Call (ℤ × Option XskSocket × ℕ)) : Call (ℤ × Option XskSocket × ℕ) :=
  if ring then do
    match ← ask with
    | .error errno => outSocket x refcount (-errno)
    | .ok _ => next x refcount
  else
    next x refcount

/-- From `if_nametoindex` on. -/
def openSocket (inhibit rx tx : Bool) (x : XskSocket) (refcount : ℕ) :
    Call (ℤ × Option XskSocket × ℕ) := do
  match ← ask with -- `if_nametoindex`
  | .error errno => outSocket x refcount (-errno)
  | .ok _ =>
      setRing rx x refcount fun x refcount => -- `XDP_RX_RING`
        setRing tx x refcount (readOffsets inhibit rx tx) -- `XDP_TX_RING`

end SocketCreate

/-- `XSK_LIBBPF_FLAGS__INHIBIT_PROG_LOAD`. -/
def inhibitProgLoad : UInt32 := 1

open SocketCreate in
/-- `xsk_socket__create`, with the reference count of the UMEM.  Of the configuration it takes the
`libbpf_flags`, if there is one. -/
def xskSocketCreate (umem : XskUmem) (refcount : ℕ) (rx tx : Bool) (libbpfFlags : Option UInt32) :
    Call (ℤ × Option XskSocket × ℕ) :=
  if !(rx || tx) then
    return (-efault, none, refcount)
  else do
    match ← calloc with
    | .error _ => return (-enomem, none, refcount)
    | .ok xsk =>
        let flags := libbpfFlags.getD 0
        let inhibit := decide (flags &&& inhibitProgLoad ≠ 0)
        if flags &&& ~~~inhibitProgLoad ≠ 0 then
          outXskAlloc xsk refcount (-einval)
        else if refcount ≠ 0 ∧ !inhibit then
          outXskAlloc xsk refcount (-ebusy)
        else if 0 < refcount then
          match ← socket with
          | .error errno =>
              note (.referenceLost umem)
              outXskAlloc xsk (refcount + 1) (-errno)
          | .ok fd => openSocket inhibit rx tx ⟨xsk, fd, umem, none, none, none⟩ (refcount + 1)
        else
          openSocket inhibit rx tx ⟨xsk, umem.fd, umem, none, none, none⟩ (refcount + 1)

/-- Unmapping a ring, if the socket has one and its size is known. -/
def unmapRing (known : Bool) (map : Option ℕ) : Call Unit :=
  match map with
  | none => return ()
  | some map => if known then munmap map else note (.ringLost map)

/-- `xsk_socket__delete`, with the reference count of the UMEM. -/
def xskSocketDelete (x : XskSocket) (refcount : ℕ) : Call ℕ := do
  match x.prog with
  | none => pure ()
  | some (progFd, xsksMapFd) =>
      xskDeleteBpfMaps xsksMapFd
      close progFd
  let offsets ← xskGetMmapOffsets
  unmapRing offsets.toBool x.rx
  unmapRing offsets.toBool x.tx
  if x.fd ≠ x.umem.fd then
    close x.fd
  free x.heap
  return refcount - 1

/-! ## What belongs to whom -/

/-- What a UMEM holds. -/
def XskUmem.owned (u : XskUmem) : Resource → ℤ :=
  Pi.single (.heap u.heap) 1 + Pi.single (.fd u.fd) 1 + Pi.single (.mapping u.fill) 1
    + Pi.single (.mapping u.comp) 1

/-- What a ring of a socket holds. -/
def ringOwned : Option ℕ → Resource → ℤ
  | none => 0
  | some map => Pi.single (.mapping map) 1

/-- What the default program of a socket holds. -/
def progOwned : Option (ℕ × ℕ) → Resource → ℤ
  | none => 0
  | some (progFd, xsksMapFd) => Pi.single (.fd progFd) 1 + Pi.single (.fd xsksMapFd) 1

/-- The descriptor of a socket, unless it is that of its UMEM. -/
def XskSocket.fdOwned (x : XskSocket) : Resource → ℤ :=
  if x.fd = x.umem.fd then 0 else Pi.single (.fd x.fd) 1

/-- What a socket holds. -/
def XskSocket.owned (x : XskSocket) : Resource → ℤ :=
  Pi.single (.heap x.heap) 1 + x.fdOwned + ringOwned x.rx + ringOwned x.tx + progOwned x.prog

/-- What nobody holds any more. -/
def Note.lost : Note → Resource → ℤ
  | .fillRingLost map => Pi.single (.mapping map) 1
  | .ringLost map => Pi.single (.mapping map) 1
  | .mapFdLost fd => Pi.single (.fd fd) 1
  | .referenceLost _ => 0
  | .errnoUnset => 0

/-- What has been lost. -/
def lost (notes : List Note) : Resource → ℤ :=
  (notes.map Note.lost).sum

@[simp] lemma lost_nil : lost [] = 0 := rfl

@[simp] lemma lost_cons (v : Note) (notes : List Note) : lost (v :: notes) = v.lost + lost notes :=
  rfl

@[simp] lemma lost_append (l l' : List Note) : lost (l ++ l') = lost l + lost l' := by
  rw [lost, List.map_append, List.sum_append]
  rfl

/-- No reference is lost. -/
def KeepsCount (notes : List Note) : Prop :=
  ∀ u, .referenceLost u ∉ notes

/-! ## What the calls do -/

section Specifications

variable {n : ℕ} {β : Type} {R : β → (Resource → ℤ) → List Note → ℕ → Prop}

lemma keepsCount_nil : KeepsCount [] :=
  fun _ hmem => absurd hmem List.not_mem_nil

/-- The value `-errno` of a call that has been refused. -/
lemma neg_errno_ne {code : ℕ} (h : code ≠ 0) : (-(code : ℤ)) ≠ 0 := by
  omega

/-- The offsets are read, or the call is refused, or it says something unexpected. -/
lemma brings_xskGetMmapOffsets {g : Except ℕ Unit → Call β}
    (herror : ∀ code, code ≠ 0 → Brings n (g (.error code)) R)
    (hunset : ∀ errno, Brings n (g (.error errno)) fun b δ notes f => R b δ (.errnoUnset :: notes) f)
    (hok : Brings n (g (.ok ())) R) : Brings n (xskGetMmapOffsets >>= g) R := by
  refine Brings.ask (g := fun r => (match r with
    | .error errno => pure (.error errno)
    | .ok optlen => if optlen = sizeofMmapOffsets ∨ optlen = sizeofMmapOffsetsV1 then pure (.ok ())
        else do
          note .errnoUnset
          return .error (← lastErrno)) >>= g) herror fun optlen => ?_
  by_cases hlen : optlen = sizeofMmapOffsets ∨ optlen = sizeofMmapOffsetsV1
  · simp only [if_pos hlen]
    exact hok
  · simp only [if_neg hlen]
    exact Brings.note (g := fun _ => (do return .error (← lastErrno)) >>= g) (Brings.lastErrno hunset)

/-! ### UMEMs -/

/-- A UMEM is created and holds what it should, or none is and nothing is held but what is lost. -/
def UmemMade (n : ℕ) (r : ℤ × Option XskUmem) (δ : Resource → ℤ) (notes : List Note) (f : ℕ) : Prop :=
  KeepsCount notes ∧ match r.2 with
    | some u => r.1 = 0 ∧ δ = u.owned + lost notes ∧ n ≤ u.heap ∧ u.heap < f ∧ u.fd < f
    | none => (r.1 ≠ 0 ∨ .errnoUnset ∈ notes) ∧ δ = lost notes

section Out

variable {umem fd : ℕ} {err : ℤ} {Q : ℤ × Option XskUmem → (Resource → ℤ) → List Note → ℕ → Prop}

lemma brings_outUmemAlloc (h : ∀ f, Q (err, none) (-Pi.single (.heap umem) 1) [] f) :
    Brings n (UmemCreate.outUmemAlloc umem err) Q := by
  refine Brings.release (Brings.pure fun f _ => ?_)
  rw [add_zero]
  exact h f

lemma brings_outSocket
    (h : ∀ f, Q (err, none) (-Pi.single (.fd fd) 1 + -Pi.single (.heap umem) 1) [] f) :
    Brings n (UmemCreate.outSocket umem fd err) Q :=
  Brings.release (brings_outUmemAlloc h)

end Out

lemma brings_xskUmemCreate (missing : Bool) (size : ℕ) (aligned : Bool) :
    Brings n (xskUmemCreate missing size aligned) (UmemMade n) := by
  unfold xskUmemCreate
  split_ifs
  · exact .pure fun f _ => ⟨keepsCount_nil, Or.inl (by decide), rfl⟩
  · exact .pure fun f _ => ⟨keepsCount_nil, Or.inl (by decide), rfl⟩
  · refine .acquire (fun code hcode => ?_) fun umem f₁ hu hu' => ?_
    · exact .pure fun f _ => ⟨keepsCount_nil, Or.inl (by decide), rfl⟩
    refine .acquire (fun code hcode => ?_) fun fd f₂ hfd hfd' => ?_
    · exact brings_outUmemAlloc fun f => ⟨keepsCount_nil, Or.inl (neg_errno_ne hcode), by simp⟩
    have hout : ∀ {k code : ℕ}, code ≠ 0 → Brings k (UmemCreate.outSocket umem fd (-code))
        fun b δ notes f => UmemMade n b (Pi.single (.heap umem) 1
          + (Pi.single (.fd fd) 1 + δ)) notes f := fun hcode =>
      brings_outSocket fun f =>
        ⟨keepsCount_nil, Or.inl (neg_errno_ne hcode), by rw [lost_nil]; abel⟩
    refine .ask (fun code hcode => hout hcode) fun _ => ?_
    refine .ask (fun code hcode => hout hcode) fun _ => ?_
    refine .ask (fun code hcode => hout hcode) fun _ => ?_
    refine brings_xskGetMmapOffsets (fun code hcode => hout hcode) (fun errno => ?_) ?_
    · refine brings_outSocket fun f => ⟨?_, Or.inr (List.mem_cons_self ..), ?_⟩
      · simp [KeepsCount]
      · simp [Note.lost]
    refine .acquire (fun code hcode => hout hcode) fun fill f₃ _ hfill => ?_
    refine .acquire (fun code hcode => ?_) fun comp f₄ _ hcomp => ?_
    · -- the fill ring stays mapped
      refine .note (brings_outSocket fun f => ⟨?_, Or.inl (neg_errno_ne hcode), ?_⟩)
      · simp [KeepsCount]
      · simp only [lost_cons, lost_nil, Note.lost]
        abel
    · refine .pure fun f hf => ⟨keepsCount_nil, rfl, ?_, hu, by dsimp only; omega, by dsimp only; omega⟩
      simp only [XskUmem.owned, lost_nil]
      abel

/-! ### The default program -/

lemma keepsCount_append {l l' : List Note} (h : KeepsCount l) (h' : KeepsCount l') :
    KeepsCount (l ++ l') := by
  intro u hmem
  rcases List.mem_append.mp hmem with hmem | hmem
  · exact h u hmem
  · exact h' u hmem

lemma keepsCount_mapFdLost (fd : ℕ) : KeepsCount [.mapFdLost fd] := by
  simp [KeepsCount]

/-- A descriptor is returned and held, or an error is and nothing is held but what is lost. -/
def FdMade (r : Except ℤ ℕ) (δ : Resource → ℤ) (notes : List Note) (_f : ℕ) : Prop :=
  KeepsCount notes ∧ match r with
    | .ok fd => δ = Pi.single (.fd fd) 1 + lost notes
    | .error err => err ≠ 0 ∧ δ = lost notes

lemma brings_xskGetMaxQueues : Brings n xskGetMaxQueues fun r δ notes _ =>
    δ = 0 ∧ notes = [] ∧ ∀ err, r = .error err → err ≠ 0 := by
  refine .acquire (fun code hcode => ?_) fun fd f _ _ => ?_
  · refine .pure fun f _ => ⟨rfl, rfl, ?_⟩
    rintro err ⟨⟩
    exact neg_errno_ne hcode
  · have hdone : ∀ {r : Except ℤ ℕ} {k : ℕ}, (∀ err, r = .error err → err ≠ 0) →
        Brings k (close fd >>= fun _ => (pure r : Call (Except ℤ ℕ))) fun b δ notes _ =>
          Pi.single (.fd fd) 1 + δ = 0 ∧ notes = [] ∧ ∀ err, b = .error err → err ≠ 0 := by
      intro r k hr
      exact .release (.pure fun f _ => ⟨by abel, rfl, hr⟩)
    refine .ask (fun code hcode => ?_) fun value => ?_
    · by_cases hnone : code = eopnotsupp
      · simp only [if_pos hnone]
        exact hdone (by simp)
      · simp only [if_neg hnone]
        refine hdone ?_
        rintro err ⟨⟩
        exact neg_errno_ne hcode
    · exact hdone (by simp)

lemma brings_xskCreateBpfMaps : Brings n xskCreateBpfMaps FdMade := by
  refine brings_xskGetMaxQueues.bind fun r δ notes f _ h => ?_
  obtain ⟨rfl, rfl, herr⟩ := h
  cases r with
  | error err => exact .pure fun f _ => ⟨keepsCount_nil, herr err rfl, by simp⟩
  | ok queues =>
      refine .acquire (fun code _ => ?_) fun fd f _ _ => ?_
      · exact .pure fun f _ => ⟨keepsCount_nil, by decide, by simp⟩
      · exact .pure fun f _ => ⟨keepsCount_nil, by simp⟩

lemma brings_xskDeleteBpfMaps {g : Unit → Call β} {xsksMapFd : ℕ}
    (h : Brings n (g ()) fun b δ notes f => R b (-Pi.single (.fd xsksMapFd) 1 + δ) notes f) :
    Brings n (xskDeleteBpfMaps xsksMapFd >>= g) R :=
  Brings.ask (g := fun _ => close xsksMapFd >>= g) (fun _ _ => .release h) fun _ => .release h

lemma brings_xskLoadXdpProg : Brings n xskLoadXdpProg FdMade := by
  refine .acquire (fun code _ => ?_) fun fd f _ _ => ?_
  · exact .pure fun f _ => ⟨keepsCount_nil, by decide, rfl⟩
  · refine .ask (fun code hcode => ?_) fun _ => ?_
    · exact .release (.pure fun f _ => ⟨keepsCount_nil, neg_errno_ne hcode, by simp⟩)
    · exact .pure fun f _ => ⟨keepsCount_nil, by simp⟩

/-- What the search has found so far is held. -/
def foundOwned : Option ℕ → Resource → ℤ
  | none => 0
  | some fd => Pi.single (.fd fd) 1

lemma brings_lookupLoop (i : ℕ) (found : Option ℕ) :
    Brings n (lookupLoop i found) fun r δ notes _ =>
      KeepsCount notes ∧ foundOwned found + δ = foundOwned r + lost notes := by
  induction i generalizing n found with
  | zero => exact .pure fun f _ => ⟨keepsCount_nil, by simp⟩
  | succ i ih =>
      refine .acquire (fun _ _ => ih found) fun fd f _ _ => ?_
      have hskip : Brings f (close fd >>= fun _ => lookupLoop i found) fun r δ notes _ =>
          KeepsCount notes
            ∧ foundOwned found + (Pi.single (.fd fd) 1 + δ) = foundOwned r + lost notes := by
        refine .release ((ih found).imp fun r δ notes f _ h => ⟨h.1, ?_⟩)
        rw [← h.2]
        abel
      refine .ask (fun _ _ => hskip) fun isXsksMap => ?_
      by_cases hone : isXsksMap = 1
      · simp only [if_pos hone]
        cases found with
        | none =>
            refine .pure_bind ((ih (some fd)).imp fun r δ notes f _ h => ⟨h.1, ?_⟩)
            rw [← h.2]
            exact zero_add _
        | some fd' =>
            refine .note ((ih (some fd)).imp fun r δ notes f _ h => ⟨?_, ?_⟩)
            · exact keepsCount_append (keepsCount_mapFdLost fd') h.1
            · have hsum := h.2
              simp only [foundOwned, lost_cons, Note.lost] at hsum ⊢
              rw [hsum]
              abel
      · simp only [if_neg hone]
        exact hskip

lemma brings_xskLookupBpfMaps : Brings n xskLookupBpfMaps FdMade := by
  refine .ask (fun _ _ => ?_) fun _ => ?_
  · exact .pure fun f _ => ⟨keepsCount_nil, by decide, rfl⟩
  refine .acquire (fun _ _ => ?_) fun mapIds f _ _ => ?_
  · exact .pure fun f _ => ⟨keepsCount_nil, by decide, rfl⟩
  refine .ask (fun _ _ => ?_) fun nrMapIds => ?_
  · exact .release (.pure fun f _ => ⟨keepsCount_nil, by decide, by simp⟩)
  refine (brings_lookupLoop nrMapIds none).bind fun found δ notes f _ h => ?_
  obtain ⟨hkeeps, hsum⟩ := h
  rw [foundOwned, zero_add] at hsum
  cases found with
  | none =>
      refine .release (.pure fun f _ => ⟨?_, by decide, ?_⟩)
      · rw [List.append_nil]
        exact hkeeps
      · rw [hsum, List.append_nil, foundOwned]
        abel
  | some fd =>
      refine .release (.pure fun f _ => ⟨?_, ?_⟩)
      · rw [List.append_nil]
        exact hkeeps
      · rw [hsum, List.append_nil, foundOwned]
        abel

/-- The program is set up and its descriptors are held, or nothing is held but what is lost. -/
def ProgMade (r : Except ℤ (ℕ × ℕ)) (δ : Resource → ℤ) (notes : List Note) (_f : ℕ) : Prop :=
  KeepsCount notes ∧ match r with
    | .ok prog => δ = progOwned (some prog) + lost notes
    | .error err => err ≠ 0 ∧ δ = lost notes

/-- What was held before goes to the program, or is given back. -/
lemma ProgMade.after {r : Except ℤ (ℕ × ℕ)} {prog : ℕ × ℕ} {δ δ' : Resource → ℤ}
    {notes notes' : List Note} {f : ℕ} (h : ProgMade r (progOwned (some prog) + δ') notes' f)
    (hkeeps : KeepsCount notes) (hδ : δ = progOwned (some prog) + lost notes) :
    ProgMade r (δ + δ') (notes ++ notes') f := by
  obtain ⟨hkeeps', h⟩ := h
  refine ⟨keepsCount_append hkeeps hkeeps', ?_⟩
  cases r with
  | error err =>
      refine ⟨h.1, ?_⟩
      rw [hδ, lost_append, ← h.2]
      abel
  | ok prog' =>
      simp only at h ⊢
      rw [hδ, lost_append, add_left_comm (progOwned (some prog')), ← h]
      abel

lemma brings_setBpfMaps (rx : Bool) (progFd xsksMapFd : ℕ) :
    Brings n (setBpfMaps rx progFd xsksMapFd) fun r δ notes f =>
      ProgMade r (progOwned (some (progFd, xsksMapFd)) + δ) notes f := by
  unfold setBpfMaps
  split_ifs
  · refine .ask (fun _ _ => ?_) fun _ => ?_
    · refine brings_xskDeleteBpfMaps (.release (.pure fun f _ => ⟨keepsCount_nil, by decide, ?_⟩))
      simp only [progOwned, lost_nil]
      abel
    · exact .pure fun f _ => ⟨keepsCount_nil, by simp⟩
  · exact .pure fun f _ => ⟨keepsCount_nil, by simp⟩

lemma brings_xskSetupXdpProg (rx : Bool) : Brings n (xskSetupXdpProg rx) ProgMade := by
  refine .ask (fun code hcode => ?_) fun progId => ?_
  · exact .pure fun f _ => ⟨keepsCount_nil, neg_errno_ne hcode, rfl⟩
  by_cases hnone : progId = 0
  · simp only [if_pos hnone]
    refine brings_xskCreateBpfMaps.bind fun r δ notes f _ h => ?_
    obtain ⟨hkeeps, h⟩ := h
    cases r with
    | error err =>
        refine .pure fun f _ => ⟨?_, h.1, ?_⟩
        · rw [List.append_nil]
          exact hkeeps
        · rw [h.2, List.append_nil, add_zero]
    | ok xsksMapFd =>
        simp only at h
        refine brings_xskLoadXdpProg.bind fun r' δ' notes' f' _ h' => ?_
        obtain ⟨hkeeps', h'⟩ := h'
        cases r' with
        | error err =>
            refine brings_xskDeleteBpfMaps (.pure fun f _ => ⟨?_, h'.1, ?_⟩)
            · rw [List.append_nil]
              exact keepsCount_append hkeeps hkeeps'
            · rw [h, h'.2, List.append_nil, lost_append]
              abel
        | ok progFd =>
            simp only at h'
            refine (brings_setBpfMaps rx progFd xsksMapFd).imp fun r'' δ'' notes'' f'' _ h'' => ?_
            rw [← add_assoc, ← List.append_assoc]
            refine h''.after (keepsCount_append hkeeps hkeeps') ?_
            rw [h, h', progOwned, lost_append]
            abel
  · simp only [if_neg hnone]
    refine .acquire (fun code hcode => ?_) fun progFd f _ _ => ?_
    · exact .pure fun f _ => ⟨keepsCount_nil, neg_errno_ne hcode, rfl⟩
    refine brings_xskLookupBpfMaps.bind fun r δ notes f' _ h => ?_
    obtain ⟨hkeeps, h⟩ := h
    cases r with
    | error err =>
        refine .release (.pure fun f _ => ⟨?_, h.1, ?_⟩)
        · rw [List.append_nil]
          exact hkeeps
        · rw [h.2, List.append_nil]
          abel
    | ok xsksMapFd =>
        simp only at h
        refine (brings_setBpfMaps rx progFd xsksMapFd).imp fun r' δ' notes' f' _ h' => ?_
        rw [← add_assoc]
        refine h'.after hkeeps ?_
        rw [h, progOwned]
        abel

/-! ### Sockets -/

open SocketCreate

/-- The descriptor of the socket is that of the UMEM just if the reference is the only one. -/
def Counted (x : XskSocket) (refcount : ℕ) : Prop :=
  refcount - 1 = 0 ↔ x.fd = x.umem.fd

section Out

variable {x : XskSocket} {refcount : ℕ} {err : ℤ}
  {Q : ℤ × Option XskSocket × ℕ → (Resource → ℤ) → List Note → ℕ → Prop}

lemma brings_outXskAlloc {xsk : ℕ} (h : ∀ f, Q (err, none, refcount) (-Pi.single (.heap xsk) 1) [] f) :
    Brings n (outXskAlloc xsk refcount err) Q := by
  refine Brings.release (Brings.pure fun f _ => ?_)
  rw [add_zero]
  exact h f

lemma brings_outSocket_socket (hcount : Counted x refcount)
    (h : ∀ f, Q (err, none, refcount - 1) (-(Pi.single (.heap x.heap) 1 + x.fdOwned)) [] f) :
    Brings n (SocketCreate.outSocket x refcount err) Q := by
  unfold SocketCreate.outSocket
  rw [neg_add_rev] at h
  split_ifs with hlast
  · have hfd : x.fdOwned = Pi.single (.fd x.fd) 1 := if_neg fun heq => hlast (hcount.mpr heq)
    rw [hfd] at h
    exact .release (brings_outXskAlloc h)
  · have hfd : x.fdOwned = 0 := if_pos (hcount.mp (not_not.mp hlast))
    rw [hfd] at h
    refine brings_outXskAlloc fun f => ?_
    have hf := h f
    rwa [neg_zero, zero_add] at hf

lemma brings_outMmapRx (hcount : Counted x refcount)
    (h : ∀ f, Q (err, none, refcount - 1)
      (-(Pi.single (.heap x.heap) 1 + x.fdOwned + ringOwned x.rx)) [] f) :
    Brings n (outMmapRx x refcount err) Q := by
  unfold outMmapRx
  cases hrx : x.rx with
  | none =>
      rw [hrx, ringOwned, add_zero] at h
      exact brings_outSocket_socket hcount h
  | some map =>
      rw [hrx, neg_add_rev] at h
      exact .release (brings_outSocket_socket hcount h)

lemma brings_outMmapTx (hcount : Counted x refcount) (hprog : x.prog = none)
    (h : ∀ f, Q (err, none, refcount - 1) (-x.owned) [] f) : Brings n (outMmapTx x refcount err) Q := by
  unfold outMmapTx
  rw [XskSocket.owned, hprog, progOwned, add_zero] at h
  cases htx : x.tx with
  | none =>
      rw [htx, ringOwned, add_zero] at h
      exact brings_outMmapRx hcount h
  | some map =>
      rw [htx, neg_add_rev] at h
      exact .release (brings_outMmapRx hcount h)

end Out

/-- The socket is completed, or given up and nothing of it is held but what is lost. -/
def Completed (x : XskSocket) (refcount : ℕ) (r : ℤ × Option XskSocket × ℕ) (δ : Resource → ℤ)
    (notes : List Note) (_f : ℕ) : Prop :=
  KeepsCount notes ∧ match r.2.1 with
    | some y => r.1 = 0 ∧ r.2.2 = refcount ∧ y.heap = x.heap ∧ y.umem = x.umem
        ∧ x.owned + δ = y.owned + lost notes
    | none => (r.1 ≠ 0 ∨ .errnoUnset ∈ notes) ∧ r.2.2 = refcount - 1 ∧ x.owned + δ = lost notes

section Stages

variable {x : XskSocket} {refcount : ℕ} {err : ℤ}

lemma completed_none (herr : err ≠ 0) (f : ℕ) :
    Completed x refcount (err, none, refcount - 1) (-x.owned) [] f :=
  ⟨keepsCount_nil, Or.inl herr, rfl, add_neg_cancel _⟩

lemma owned_bare (hrx : x.rx = none) (htx : x.tx = none) (hprog : x.prog = none) :
    x.owned = Pi.single (.heap x.heap) 1 + x.fdOwned := by
  simp [XskSocket.owned, hrx, htx, hprog, ringOwned, progOwned]

/-- Giving a socket up that has no rings yet. -/
lemma brings_outSocket_completed (hcount : Counted x refcount) (hrx : x.rx = none)
    (htx : x.tx = none) (hprog : x.prog = none) (herr : err ≠ 0) :
    Brings n (SocketCreate.outSocket x refcount err) (Completed x refcount) := by
  refine brings_outSocket_socket hcount fun f => ?_
  rw [← owned_bare hrx htx hprog]
  exact completed_none herr f

lemma brings_bindSocket (inhibit : Bool) (hcount : Counted x refcount) (hprog : x.prog = none) :
    Brings n (bindSocket inhibit x refcount) (Completed x refcount) := by
  refine .ask (fun code hcode => ?_) fun _ => ?_
  · exact brings_outMmapTx hcount hprog (completed_none (neg_errno_ne hcode))
  cases inhibit with
  | true => exact .pure fun f _ => ⟨keepsCount_nil, rfl, rfl, rfl, rfl, by simp⟩
  | false =>
      refine (brings_xskSetupXdpProg x.rx.isSome).bind fun r δ notes f _ h => ?_
      obtain ⟨hkeeps, h⟩ := h
      cases r with
      | error err =>
          refine brings_outMmapTx hcount hprog fun f => ⟨?_, Or.inl h.1, rfl, ?_⟩
          · rw [List.append_nil]
            exact hkeeps
          · rw [h.2, List.append_nil]
            abel
      | ok prog =>
          simp only at h
          refine .pure fun f _ => ⟨?_, rfl, rfl, rfl, rfl, ?_⟩
          · rw [List.append_nil]
            exact hkeeps
          · simp only [XskSocket.owned, XskSocket.fdOwned, hprog, h, List.append_nil]
            rw [progOwned]
            abel

/-- A socket with one more ring. -/
lemma Completed.ring {y : XskSocket} {map : ℕ} {r : ℤ × Option XskSocket × ℕ} {δ : Resource → ℤ}
    {notes : List Note} {f : ℕ} (h : Completed y refcount r δ notes f) (hheap : y.heap = x.heap)
    (humem : y.umem = x.umem) (howned : y.owned = x.owned + Pi.single (.mapping map) 1) :
    Completed x refcount r (Pi.single (.mapping map) 1 + δ) notes f := by
  obtain ⟨hkeeps, h⟩ := h
  rw [Completed, ← add_assoc, ← howned, ← hheap, ← humem]
  exact ⟨hkeeps, h⟩

lemma brings_mapTx (inhibit tx : Bool) (hcount : Counted x refcount) (htx : x.tx = none)
    (hprog : x.prog = none) : Brings n (mapTx inhibit tx x refcount) (Completed x refcount) := by
  unfold mapTx
  split_ifs
  · refine .acquire (fun code hcode => ?_) fun map f _ _ => ?_
    · refine brings_outMmapRx hcount fun f => ?_
      have howned : Pi.single (.heap x.heap) 1 + x.fdOwned + ringOwned x.rx = x.owned := by
        simp [XskSocket.owned, htx, hprog, ringOwned, progOwned]
      rw [howned]
      exact completed_none (neg_errno_ne hcode) f
    · refine (brings_bindSocket (x := { x with tx := some map }) inhibit hcount hprog).imp
        fun r δ notes f _ h => h.ring rfl rfl ?_
      simp only [XskSocket.owned, XskSocket.fdOwned, htx, ringOwned]
      abel
  · exact brings_bindSocket inhibit hcount hprog

lemma brings_mapRx (inhibit rx tx : Bool) (hcount : Counted x refcount) (hrx : x.rx = none)
    (htx : x.tx = none) (hprog : x.prog = none) :
    Brings n (mapRx inhibit rx tx x refcount) (Completed x refcount) := by
  unfold mapRx
  split_ifs
  · refine .acquire (fun code hcode => ?_) fun map f _ _ => ?_
    · exact brings_outSocket_completed hcount hrx htx hprog (neg_errno_ne hcode)
    · refine (brings_mapTx (x := { x with rx := some map }) inhibit tx hcount htx hprog).imp
        fun r δ notes f _ h => h.ring rfl rfl ?_
      simp only [XskSocket.owned, XskSocket.fdOwned, hrx, ringOwned]
      abel
  · exact brings_mapTx inhibit tx hcount htx hprog

lemma brings_readOffsets (inhibit rx tx : Bool) (hcount : Counted x refcount) (hrx : x.rx = none)
    (htx : x.tx = none) (hprog : x.prog = none) :
    Brings n (readOffsets inhibit rx tx x refcount) (Completed x refcount) := by
  refine brings_xskGetMmapOffsets (fun code hcode => ?_) (fun errno => ?_) ?_
  · exact brings_outSocket_completed hcount hrx htx hprog (neg_errno_ne hcode)
  · refine brings_outSocket_socket hcount fun f => ?_
    rw [← owned_bare hrx htx hprog]
    refine ⟨by simp [KeepsCount], Or.inr (List.mem_cons_self ..), rfl, ?_⟩
    simp [Note.lost]
  · exact brings_mapRx inhibit rx tx hcount hrx htx hprog

lemma brings_setRing (ring : Bool) (hcount : Counted x refcount) (hrx : x.rx = none)
    (htx : x.tx = none) (hprog : x.prog = none)
    {next : XskSocket → ℕ → Call (ℤ × Option XskSocket × ℕ)}
    (hnext : Brings n (next x refcount) (Completed x refcount)) :
    Brings n (setRing ring x refcount next) (Completed x refcount) := by
  unfold setRing
  split_ifs
  · refine .ask (fun code hcode => ?_) fun _ => hnext
    exact brings_outSocket_completed hcount hrx htx hprog (neg_errno_ne hcode)
  · exact hnext

lemma brings_openSocket (inhibit rx tx : Bool) (hcount : Counted x refcount) (hrx : x.rx = none)
    (htx : x.tx = none) (hprog : x.prog = none) :
    Brings n (openSocket inhibit rx tx x refcount) (Completed x refcount) := by
  refine .ask (fun code hcode => ?_) fun _ => ?_
  · exact brings_outSocket_completed hcount hrx htx hprog (neg_errno_ne hcode)
  · refine brings_setRing rx hcount hrx htx hprog (brings_setRing tx hcount hrx htx hprog ?_)
    exact brings_readOffsets inhibit rx tx hcount hrx htx hprog

end Stages

/-- A socket is created and holds what it should, or none is and nothing is held but what is lost. -/
def SocketMade (n : ℕ) (umem : XskUmem) (refcount : ℕ) (r : ℤ × Option XskSocket × ℕ)
    (δ : Resource → ℤ) (notes : List Note) (f : ℕ) : Prop :=
  (∀ u, .referenceLost u ∈ notes → u = umem) ∧ match r.2.1 with
    | some x => r.1 = 0 ∧ r.2.2 = refcount + 1 ∧ .referenceLost umem ∉ notes ∧ n ≤ x.heap ∧ x.heap < f
        ∧ x.umem = umem ∧ δ = x.owned + lost notes
    | none => (r.1 ≠ 0 ∨ .errnoUnset ∈ notes)
        ∧ r.2.2 = refcount + notes.count (.referenceLost umem) ∧ δ = lost notes

lemma Completed.made {x : XskSocket} {umem : XskUmem} {refcount : ℕ} {r : ℤ × Option XskSocket × ℕ}
    {δ δ₀ : Resource → ℤ} {notes : List Note} {f : ℕ} (h : Completed x (refcount + 1) r δ notes f)
    (hn : n ≤ x.heap) (hf : x.heap < f) (humem : x.umem = umem) (hδ : δ₀ = x.owned) :
    SocketMade n umem refcount r (δ₀ + δ) notes f := by
  obtain ⟨hkeeps, h⟩ := h
  refine ⟨fun u hu => absurd hu (hkeeps u), ?_⟩
  rw [hδ]
  match hr : r.2.1 with
  | some y =>
      rw [hr] at h
      obtain ⟨hret, hcount, hheap, humem', hsum⟩ := h
      exact ⟨hret, hcount, hkeeps umem, by omega, by omega, humem'.trans humem, hsum⟩
  | none =>
      rw [hr] at h
      obtain ⟨hret, hcount, hsum⟩ := h
      exact ⟨hret, by rw [List.count_eq_zero.mpr (hkeeps umem)]; exact hcount, hsum⟩

lemma socketMade_none {umem : XskUmem} {refcount f : ℕ} {err : ℤ} (herr : err ≠ 0) :
    SocketMade n umem refcount (err, none, refcount) 0 [] f :=
  ⟨fun _ hmem => absurd hmem List.not_mem_nil, Or.inl herr, rfl, rfl⟩

lemma brings_xskSocketCreate {umem : XskUmem} (hfd : umem.fd < n) (refcount : ℕ) (rx tx : Bool)
    (libbpfFlags : Option UInt32) :
    Brings n (xskSocketCreate umem refcount rx tx libbpfFlags) (SocketMade n umem refcount) := by
  unfold xskSocketCreate
  by_cases hnone : (!(rx || tx)) = true
  · rw [if_pos hnone]
    exact .pure fun f _ => socketMade_none (by decide)
  · rw [if_neg hnone]
    refine .acquire (fun code _ => ?_) fun xsk f₁ hxsk hxsk' => ?_
    · exact .pure fun f _ => socketMade_none (by decide)
    have hout : ∀ {k : ℕ} {err : ℤ}, err ≠ 0 → Brings k (outXskAlloc xsk refcount err)
        fun b δ notes f => SocketMade n umem refcount b (Pi.single (.heap xsk) 1 + δ) notes f :=
      fun herr => brings_outXskAlloc fun f => by
        rw [add_neg_cancel]
        exact socketMade_none herr
    simp only
    split_ifs with hflags hbusy hshared
    · exact hout (by decide)
    · exact hout (by decide)
    · refine .acquire (fun code hcode => ?_) fun fd f₂ hfd₁ hfd₂ => ?_
      · -- the reference is counted, and `out_xsk_alloc` does not take it back
        refine .note (brings_outXskAlloc fun f => ⟨?_, Or.inl (neg_errno_ne hcode), ?_, ?_⟩)
        · simp
        · simp
        · simp [Note.lost]
      · have hcount : Counted ⟨xsk, fd, umem, none, none, none⟩ (refcount + 1) := by
          rw [Counted]
          constructor
          · intro h
            omega
          · intro h
            simp only at h
            omega
        refine (brings_openSocket _ rx tx hcount rfl rfl rfl).imp fun r δ notes f hf h => ?_
        rw [← add_assoc]
        refine h.made hxsk (by dsimp only; omega) rfl ?_
        have hown : fd ≠ umem.fd := by omega
        simp [XskSocket.owned, XskSocket.fdOwned, hown, ringOwned, progOwned]
    · have hcount : Counted ⟨xsk, umem.fd, umem, none, none, none⟩ (refcount + 1) := by
        rw [Counted]
        exact ⟨fun _ => rfl, fun _ => by omega⟩
      refine (brings_openSocket _ rx tx hcount rfl rfl rfl).imp fun r δ notes f hf h => ?_
      refine h.made hxsk (by dsimp only; omega) rfl ?_
      simp [XskSocket.owned, XskSocket.fdOwned, ringOwned, progOwned]

/-! ### Deleting -/

/-- A ring is unmapped, or lost. -/
lemma brings_unmapRing (known : Bool) (map : Option ℕ) :
    Brings n (unmapRing known map) fun _ δ notes _ =>
      KeepsCount notes ∧ δ = -ringOwned map + lost notes := by
  cases map with
  | none => exact .pure fun f _ => ⟨keepsCount_nil, by simp [ringOwned]⟩
  | some map =>
      cases known with
      | true =>
          refine Brings.release (Brings.pure fun f _ => ⟨keepsCount_nil, ?_⟩)
          simp [ringOwned]
      | false =>
          refine Brings.note (Brings.pure fun f _ => ⟨by simp [KeepsCount], ?_⟩)
          simp [ringOwned, Note.lost]

/-- The descriptor of the socket is closed, unless it is that of the UMEM, and the socket is freed. -/
lemma brings_freeSocket (x : XskSocket) (refcount : ℕ) :
    Brings n (do
      if x.fd ≠ x.umem.fd then
        close x.fd
      free x.heap
      return refcount - 1) fun r δ notes _ =>
        r = refcount - 1 ∧ notes = [] ∧ δ = -(Pi.single (.heap x.heap) 1 + x.fdOwned) := by
  by_cases hfd : x.fd = x.umem.fd
  · simp only [hfd, ne_eq, not_true_eq_false, if_false]
    refine .release (.pure fun f _ => ⟨rfl, rfl, ?_⟩)
    simp [XskSocket.fdOwned, hfd]
  · simp only [ne_eq, hfd, not_false_eq_true, if_true]
    refine .release (.release (.pure fun f _ => ⟨rfl, rfl, ?_⟩))
    rw [XskSocket.fdOwned, if_neg hfd]
    abel

/-- From `xsk_get_mmap_offsets` on. -/
lemma brings_deleteRings (x : XskSocket) (refcount : ℕ) (known : Bool) :
    Brings n (do
      unmapRing known x.rx
      unmapRing known x.tx
      if x.fd ≠ x.umem.fd then
        close x.fd
      free x.heap
      return refcount - 1) fun r δ notes _ =>
        r = refcount - 1 ∧ KeepsCount notes ∧ δ = progOwned x.prog - x.owned + lost notes := by
  refine (brings_unmapRing known x.rx).bind fun _ δ notes f _ h => ?_
  refine (brings_unmapRing known x.tx).bind fun _ δ' notes' f' _ h' => ?_
  refine (brings_freeSocket x refcount).imp fun r δ'' notes'' f'' _ h'' => ?_
  obtain ⟨hkeeps, hδ⟩ := h
  obtain ⟨hkeeps', hδ'⟩ := h'
  obtain ⟨hr, hnotes, hδ''⟩ := h''
  refine ⟨hr, ?_, ?_⟩
  · rw [hnotes, List.append_nil]
    exact keepsCount_append hkeeps hkeeps'
  · rw [hδ, hδ', hδ'', hnotes, List.append_nil, lost_append, XskSocket.owned]
    abel

/-- From `xsk_get_mmap_offsets` on, with what it says. -/
lemma brings_deleteSocket (x : XskSocket) (refcount : ℕ) :
    Brings n (do
      let offsets ← xskGetMmapOffsets
      unmapRing offsets.toBool x.rx
      unmapRing offsets.toBool x.tx
      if x.fd ≠ x.umem.fd then
        close x.fd
      free x.heap
      return refcount - 1) fun r δ notes _ =>
        r = refcount - 1 ∧ KeepsCount notes ∧ δ = progOwned x.prog - x.owned + lost notes := by
  refine brings_xskGetMmapOffsets (fun code _ => ?_) (fun errno => ?_) ?_
  · exact brings_deleteRings x refcount false
  · refine (brings_deleteRings x refcount false).imp fun r δ notes f _ h => ⟨h.1, ?_, ?_⟩
    · exact keepsCount_append (l := [.errnoUnset]) (by simp [KeepsCount]) h.2.1
    · rw [h.2.2, lost_cons, Note.lost, zero_add]
  · exact brings_deleteRings x refcount true

lemma brings_xskSocketDelete (x : XskSocket) (refcount : ℕ) :
    Brings n (xskSocketDelete x refcount) fun r δ notes _ =>
      r = refcount - 1 ∧ KeepsCount notes ∧ δ = -x.owned + lost notes := by
  have hrest : ∀ {k : ℕ}, Brings k _ _ := @fun k => brings_deleteSocket (n := k) x refcount
  unfold xskSocketDelete
  cases hprog : x.prog with
  | none =>
      refine .pure_bind (hrest.imp fun r δ notes f _ h => ⟨h.1, h.2.1, ?_⟩)
      rw [h.2.2, hprog, progOwned]
      abel
  | some prog =>
      refine brings_xskDeleteBpfMaps (.release (hrest.imp fun r δ notes f _ h => ⟨h.1, h.2.1, ?_⟩))
      rw [h.2.2, hprog, progOwned]
      abel

lemma brings_xskUmemDelete (u : XskUmem) (refcount : ℕ) :
    Brings n (xskUmemDelete u refcount) fun r δ notes _ => KeepsCount notes ∧
      if refcount = 0 then r = 0 ∧ δ = -u.owned + lost notes else r = -ebusy ∧ δ = 0 ∧ notes = [] := by
  unfold xskUmemDelete
  by_cases hzero : refcount = 0
  · simp only [hzero, ne_eq, not_true_eq_false, if_false, if_true]
    have hdone : ∀ {k : ℕ}, Brings k (do close u.fd; free u.heap; return (0 : ℤ) : Call ℤ)
        fun r δ notes _ => r = 0 ∧ notes = []
          ∧ δ = -(Pi.single (.heap u.heap) 1 + Pi.single (.fd u.fd) 1) :=
      .release (.release (.pure fun f _ => ⟨rfl, rfl, by abel⟩))
    have hlost : ∀ {k : ℕ}, Brings k (do
        note (.ringLost u.fill); note (.ringLost u.comp); close u.fd; free u.heap
        return (0 : ℤ) : Call ℤ) fun r δ notes _ =>
          KeepsCount notes ∧ r = 0 ∧ δ = -u.owned + lost notes := by
      refine .note (.note (hdone.imp fun r δ notes f _ h => ⟨?_, h.1, ?_⟩))
      · rw [h.2.1]
        simp [KeepsCount]
      · rw [h.2.1, h.2.2]
        simp only [lost_cons, lost_nil, Note.lost, XskUmem.owned]
        abel
    refine brings_xskGetMmapOffsets (fun code _ => hlost) (fun errno => ?_) ?_
    · refine hlost.imp fun r δ notes f _ h => ⟨?_, h.2.1, ?_⟩
      · exact keepsCount_append (l := [.errnoUnset]) (by simp [KeepsCount]) h.1
      · rw [h.2.2, lost_cons, Note.lost, zero_add]
    · refine .release (.release (hdone.imp fun r δ notes f _ h => ⟨?_, h.1, ?_⟩))
      · rw [h.2.1]
        exact keepsCount_nil
      · rw [h.2.1, h.2.2]
        simp only [lost_nil, XskUmem.owned]
        abel
  · simp only [ne_eq, hzero, not_false_eq_true, if_true, if_false]
    exact .pure fun f _ => ⟨keepsCount_nil, rfl, rfl, rfl⟩

end Specifications

/-! ## Runs -/

/-- The process with its UMEMs and sockets, and the reference counts. -/
structure World where
  process : Process Resource Note
  umems : List XskUmem
  sockets : List XskSocket
  refcount : XskUmem → ℕ

namespace World

variable (w : World) (replies : List Reply)

/-- The process, with the answers the system will give next. -/
def facing : Process Resource Note :=
  { w.process with replies := replies }

/-- `xsk_umem__create` is called. -/
def createUmem (missing : Bool) (size : ℕ) (aligned : Bool) : World :=
  let r := xskUmemCreate missing size aligned (w.facing replies)
  { w with
    process := r.2
    umems := r.1.2.toList ++ w.umems
    refcount := match r.1.2 with
      | none => w.refcount
      | some u => Function.update w.refcount u 0 }

/-- `xsk_umem__delete` is called. -/
def deleteUmem (u : XskUmem) : World :=
  let r := xskUmemDelete u (w.refcount u) (w.facing replies)
  { w with
    process := r.2
    umems := if r.1 = 0 then w.umems.erase u else w.umems }

/-- `xsk_socket__create` is called. -/
def createSocket (umem : XskUmem) (rx tx : Bool) (libbpfFlags : Option UInt32) : World :=
  let r := xskSocketCreate umem (w.refcount umem) rx tx libbpfFlags (w.facing replies)
  { w with
    process := r.2
    sockets := r.1.2.1.toList ++ w.sockets
    refcount := Function.update w.refcount umem r.1.2.2 }

/-- `xsk_socket__delete` is called. -/
def deleteSocket (x : XskSocket) : World :=
  let r := xskSocketDelete x (w.refcount x.umem) (w.facing replies)
  { w with
    process := r.2
    sockets := w.sockets.erase x
    refcount := Function.update w.refcount x.umem r.1 }

end World

/-- A call, on what there is, with any answers. -/
inductive Step (w : World) : World → Prop
  | createUmem (replies : List Reply) (missing : Bool) (size : ℕ) (aligned : Bool) :
      Step w (w.createUmem replies missing size aligned)
  | deleteUmem (replies : List Reply) {u : XskUmem} (hu : u ∈ w.umems) :
      Step w (w.deleteUmem replies u)
  | createSocket (replies : List Reply) {umem : XskUmem} (humem : umem ∈ w.umems) (rx tx : Bool)
      (libbpfFlags : Option UInt32) : Step w (w.createSocket replies umem rx tx libbpfFlags)
  | deleteSocket (replies : List Reply) {x : XskSocket} (hx : x ∈ w.sockets) :
      Step w (w.deleteSocket replies x)

/-- Any calls one after another. -/
abbrev Run : World → World → Prop :=
  Relation.ReflTransGen Step

/-- Nothing is held. -/
def World.start : World :=
  ⟨⟨0, [], 0, 0, []⟩, [], [], fun _ => 0⟩

/-! ### The books balance -/

/-- The account is what is owned and what is lost, and the references are those of the sockets and the
lost ones. -/
structure Balanced (w : World) : Prop where
  account : w.process.account = (w.umems.map XskUmem.owned).sum + (w.sockets.map XskSocket.owned).sum
    + lost w.process.notes
  refcount : ∀ u ∈ w.umems, w.refcount u
    = w.sockets.countP (fun x => x.umem = u) + w.process.notes.count (.referenceLost u)
  live : ∀ x ∈ w.sockets, x.umem ∈ w.umems
  named : ∀ u ∈ w.umems, u.heap < w.process.fresh ∧ u.fd < w.process.fresh
  noted : ∀ u, .referenceLost u ∈ w.process.notes → u.heap < w.process.fresh
  single : Single w.process

lemma KeepsCount.count {notes : List Note} (h : KeepsCount notes) (u : XskUmem) :
    notes.count (.referenceLost u) = 0 :=
  List.count_eq_zero.mpr (h u)

lemma balanced_start : Balanced World.start where
  account := by simp [World.start]
  refcount := by simp [World.start]
  live := by simp [World.start]
  named := by simp [World.start]
  noted := by simp [World.start]
  single := fun r => by simp [World.start]

namespace Balanced

variable {w w' : World}

/-- What a call brings about is what the UMEMs and sockets own more, or less, afterwards. -/
lemma after (h : Balanced w) {δ : Resource → ℤ} {notes : List Note}
    (haccount : w'.process.account = w.process.account + δ)
    (hnotes : w'.process.notes = w.process.notes ++ notes)
    (hfresh : w.process.fresh ≤ w'.process.fresh) (hsingle : Single w.process → Single w'.process)
    (howned : (w'.umems.map XskUmem.owned).sum + (w'.sockets.map XskSocket.owned).sum + lost notes
      = (w.umems.map XskUmem.owned).sum + (w.sockets.map XskSocket.owned).sum + δ)
    (hrefcount : ∀ u ∈ w'.umems, w'.refcount u = w'.sockets.countP (fun x => x.umem = u)
      + (w.process.notes.count (.referenceLost u) + notes.count (.referenceLost u)))
    (hlive : ∀ x ∈ w'.sockets, x.umem ∈ w'.umems)
    (hnamed : ∀ u ∈ w'.umems, u ∈ w.umems ∨ u.heap < w'.process.fresh ∧ u.fd < w'.process.fresh)
    (hnoted : ∀ u, .referenceLost u ∈ notes → u ∈ w.umems) : Balanced w' := by
  refine ⟨?_, ?_, hlive, ?_, ?_, hsingle h.single⟩
  · rw [haccount, h.account, hnotes, lost_append]
    calc _ = (w.umems.map XskUmem.owned).sum + (w.sockets.map XskSocket.owned).sum + δ
          + lost w.process.notes := by abel
      _ = _ := by
        rw [← howned]
        abel
  · intro u hu
    rw [hnotes, List.count_append]
    exact hrefcount u hu
  · intro u hu
    rcases hnamed u hu with hu | hu
    · exact ⟨(h.named u hu).1.trans_le hfresh, (h.named u hu).2.trans_le hfresh⟩
    · exact hu
  · intro u hmem
    rw [hnotes] at hmem
    rcases List.mem_append.mp hmem with hmem | hmem
    · exact (h.noted u hmem).trans_le hfresh
    · exact ((h.named u (hnoted u hmem)).1).trans_le hfresh

variable (replies : List Reply)

lemma createUmem (h : Balanced w) (missing : Bool) (size : ℕ) (aligned : Bool) :
    Balanced (w.createUmem replies missing size aligned) := by
  obtain ⟨δ, notes, haccount, hnotes, hfresh, hsingle, hkeeps, hmade⟩ :=
    brings_xskUmemCreate missing size aligned (w.facing replies) (le_refl w.process.fresh)
  have hnoted : ∀ u, .referenceLost u ∈ notes → u ∈ w.umems := fun u hmem => absurd hmem (hkeeps u)
  unfold World.createUmem
  generalize xskUmemCreate missing size aligned (w.facing replies) = r at *
  obtain ⟨⟨err, made⟩, process⟩ := r
  cases made with
  | none =>
      refine h.after haccount hnotes hfresh hsingle ?_ ?_ h.live (fun u hu => Or.inl hu) hnoted
      · simp only [Option.toList_none, List.nil_append]
        rw [hmade.2]
      · intro u hu
        rw [hkeeps.count, add_zero]
        exact h.refcount u hu
  | some v =>
      obtain ⟨_, hδ, hheap, hheap', hfd⟩ := hmade
      -- the name of the new UMEM has not been used
      have hnew : ∀ u ∈ w.umems, u ≠ v := by
        rintro u hu rfl
        exact absurd (h.named u hu).1 (by omega)
      have hunnoted : .referenceLost v ∉ w.process.notes := fun hmem =>
        absurd (h.noted v hmem) (by omega)
      refine h.after haccount hnotes hfresh hsingle ?_ ?_ ?_ ?_ hnoted
      · simp only [Option.toList_some, List.singleton_append, List.map_cons, List.sum_cons]
        rw [hδ]
        abel
      · intro u hu
        rw [hkeeps.count, add_zero]
        rcases List.mem_cons.mp hu with rfl | hu
        · have hnone : w.sockets.countP (fun x => x.umem = u) = 0 := by
            rw [List.countP_eq_zero]
            intro x hx
            simp [hnew _ (h.live x hx)]
          simp [hnone, List.count_eq_zero.mpr hunnoted]
        · simp only [Function.update_of_ne (hnew u hu)]
          exact h.refcount u hu
      · exact fun x hx => List.mem_cons_of_mem _ (h.live x hx)
      · intro u hu
        rcases List.mem_cons.mp hu with rfl | hu
        · exact Or.inr ⟨hheap', hfd⟩
        · exact Or.inl hu

lemma deleteUmem (h : Balanced w) {u : XskUmem} (hu : u ∈ w.umems) :
    Balanced (w.deleteUmem replies u) := by
  obtain ⟨δ, notes, haccount, hnotes, hfresh, hsingle, hkeeps, hdone⟩ :=
    brings_xskUmemDelete u (w.refcount u) (w.facing replies) (le_refl w.process.fresh)
  have hnoted : ∀ u, .referenceLost u ∈ notes → u ∈ w.umems := fun u hmem => absurd hmem (hkeeps u)
  unfold World.deleteUmem
  generalize xskUmemDelete u (w.refcount u) (w.facing replies) = r at *
  obtain ⟨err, process⟩ := r
  split_ifs at hdone with hzero
  · obtain ⟨herr, hδ⟩ := hdone
    have hnone : w.sockets.countP (fun x => x.umem = u) = 0 := by
      have := h.refcount u hu
      omega
    refine h.after haccount hnotes hfresh hsingle ?_ ?_ ?_ ?_ hnoted
    · simp only [if_pos herr]
      rw [hδ, ← List.sum_map_erase XskUmem.owned hu]
      abel
    · intro v hv
      simp only [if_pos herr] at hv
      rw [hkeeps.count, add_zero]
      exact h.refcount v (List.mem_of_mem_erase hv)
    · intro x hx
      simp only [if_pos herr]
      -- no socket is on the UMEM that goes
      refine (List.mem_erase_of_ne fun heq => ?_).mpr (h.live x hx)
      have hx' := List.countP_eq_zero.mp hnone x hx
      simp [heq] at hx'
    · intro v hv
      simp only [if_pos herr] at hv
      exact Or.inl (List.mem_of_mem_erase hv)
  · obtain ⟨herr, hδ, hnil⟩ := hdone
    have hne : err ≠ 0 := by
      rw [show err = -ebusy from herr]
      decide
    refine h.after haccount hnotes hfresh hsingle ?_ ?_ ?_ ?_ hnoted
    · simp only [if_neg hne]
      rw [hδ, hnil, lost_nil]
    · intro v hv
      simp only [if_neg hne] at hv
      rw [hkeeps.count, add_zero]
      exact h.refcount v hv
    · intro x hx
      simp only [if_neg hne]
      exact h.live x hx
    · intro v hv
      simp only [if_neg hne] at hv
      exact Or.inl hv

lemma createSocket (h : Balanced w) {umem : XskUmem} (humem : umem ∈ w.umems) (rx tx : Bool)
    (libbpfFlags : Option UInt32) :
    Balanced (w.createSocket replies umem rx tx libbpfFlags) := by
  obtain ⟨δ, notes, haccount, hnotes, hfresh, hsingle, honly, hmade⟩ :=
    brings_xskSocketCreate (h.named umem humem).2 (w.refcount umem) rx tx libbpfFlags
      (w.facing replies) (le_refl w.process.fresh)
  have hnoted : ∀ u, .referenceLost u ∈ notes → u ∈ w.umems := by
    intro u hmem
    rw [honly u hmem]
    exact humem
  have hother : ∀ u, u ≠ umem → notes.count (.referenceLost u) = 0 := fun u hne =>
    List.count_eq_zero.mpr fun hmem => hne (honly u hmem)
  unfold World.createSocket
  generalize xskSocketCreate umem (w.refcount umem) rx tx libbpfFlags (w.facing replies) = r at *
  obtain ⟨⟨err, made, refcount⟩, process⟩ := r
  cases made with
  | none =>
      obtain ⟨_, hcount, hδ⟩ := hmade
      refine h.after haccount hnotes hfresh hsingle ?_ ?_ h.live (fun u hu => Or.inl hu) hnoted
      · simp only [Option.toList_none, List.nil_append]
        rw [hδ]
      · intro u hu
        simp only [Option.toList_none, List.nil_append]
        rw [← add_assoc, ← h.refcount u hu]
        by_cases heq : u = umem
        · subst heq
          simp only [Function.update_self]
          exact hcount
        · rw [Function.update_of_ne heq, hother u heq, add_zero]
  | some x =>
      obtain ⟨_, hcount, hkeeps, _, _, hx, hδ⟩ := hmade
      refine h.after haccount hnotes hfresh hsingle ?_ ?_ ?_ (fun u hu => Or.inl hu) hnoted
      · simp only [Option.toList_some, List.singleton_append, List.map_cons, List.sum_cons]
        rw [hδ]
        abel
      · intro u hu
        simp only [Option.toList_some, List.singleton_append, List.countP_cons, hx]
        by_cases heq : u = umem
        · subst heq
          have hcount' := h.refcount u hu
          simp only at hcount
          simp only [Function.update_self, List.count_eq_zero.mpr hkeeps, decide_true, if_true]
          omega
        · have hne : umem ≠ u := fun h => heq h.symm
          rw [Function.update_of_ne heq, hother u heq, h.refcount u hu]
          simp [hne]
      · intro y hy
        rcases List.mem_cons.mp hy with rfl | hy
        · rw [hx]
          exact humem
        · exact h.live y hy

lemma deleteSocket (h : Balanced w) {x : XskSocket} (hx : x ∈ w.sockets) :
    Balanced (w.deleteSocket replies x) := by
  obtain ⟨δ, notes, haccount, hnotes, hfresh, hsingle, hcount, hkeeps, hδ⟩ :=
    brings_xskSocketDelete x (w.refcount x.umem) (w.facing replies) (le_refl w.process.fresh)
  have hnoted : ∀ u, .referenceLost u ∈ notes → u ∈ w.umems := fun u hmem => absurd hmem (hkeeps u)
  unfold World.deleteSocket
  generalize xskSocketDelete x (w.refcount x.umem) (w.facing replies) = r at *
  obtain ⟨refcount, process⟩ := r
  refine h.after haccount hnotes hfresh hsingle ?_ ?_ ?_ (fun u hu => Or.inl hu) hnoted
  · rw [hδ, ← List.sum_map_erase XskSocket.owned hx]
    abel
  · intro u hu
    rw [hkeeps.count, add_zero, List.countP_erase]
    by_cases heq : u = x.umem
    · subst heq
      have hcount' := h.refcount x.umem hu
      have hpos : 0 < w.sockets.countP (fun y => y.umem = x.umem) :=
        List.countP_pos_iff.mpr ⟨x, hx, by simp⟩
      simp only at hcount
      simp only [Function.update_self, hx, decide_true, and_self, if_true]
      omega
    · have hne : x.umem ≠ u := fun h => heq h.symm
      simp only [Function.update_of_ne heq, hne, decide_false, Bool.false_eq_true, and_false, if_false]
      exact h.refcount u hu
  · exact fun y hy => h.live y (List.mem_of_mem_erase hy)

lemma step (h : Balanced w) (hstep : Step w w') : Balanced w' := by
  cases hstep with
  | createUmem replies missing size aligned => exact h.createUmem replies missing size aligned
  | deleteUmem replies hu => exact h.deleteUmem replies hu
  | createSocket replies humem rx tx libbpfFlags =>
      exact h.createSocket replies humem rx tx libbpfFlags
  | deleteSocket replies hx => exact h.deleteSocket replies hx

lemma run (h : Balanced w) (hrun : Run w w') : Balanced w' := by
  induction hrun with
  | refl => exact h
  | tail _ hstep ih => exact ih.step hstep

end Balanced

/-! ### Owners -/

lemma single_nonneg (r : Resource) : 0 ≤ Pi.single (M := fun _ => ℤ) r 1 :=
  Pi.single_nonneg.mpr zero_le_one

lemma XskUmem.owned_nonneg (u : XskUmem) : 0 ≤ u.owned :=
  add_nonneg (add_nonneg (add_nonneg (single_nonneg _) (single_nonneg _)) (single_nonneg _))
    (single_nonneg _)

lemma XskSocket.owned_nonneg (x : XskSocket) : 0 ≤ x.owned := by
  have hfd : 0 ≤ x.fdOwned := by
    unfold XskSocket.fdOwned
    split_ifs
    · exact le_rfl
    · exact single_nonneg _
  have hring : ∀ map, 0 ≤ ringOwned map := by
    intro map
    cases map with
    | none => exact le_rfl
    | some map => exact single_nonneg _
  have hprog : 0 ≤ progOwned x.prog := by
    cases x.prog with
    | none => exact le_rfl
    | some prog => exact add_nonneg (single_nonneg _) (single_nonneg _)
  exact add_nonneg (add_nonneg (add_nonneg (add_nonneg (single_nonneg _) hfd) (hring _)) (hring _)) hprog

lemma lost_nonneg (notes : List Note) : 0 ≤ lost notes := by
  induction notes with
  | nil => exact le_rfl
  | cons v notes ih =>
      rw [lost_cons]
      refine add_nonneg ?_ ih
      cases v with
      | fillRingLost map => exact single_nonneg _
      | referenceLost umem => exact le_rfl
      | ringLost map => exact single_nonneg _
      | mapFdLost fd => exact single_nonneg _
      | errnoUnset => exact le_rfl

/-- Nothing has been given back that was not held. -/
lemma Balanced.account_nonneg {w : World} (h : Balanced w) : 0 ≤ w.process.account := by
  rw [h.account]
  refine add_nonneg (add_nonneg (List.sum_nonneg ?_) (List.sum_nonneg ?_)) (lost_nonneg _)
  · simpa using fun u _ => XskUmem.owned_nonneg u
  · simpa using fun x _ => XskSocket.owned_nonneg x

/-- **Every resource has an owner**, one: the UMEM or the socket it belongs to, unless it is lost.  The
reference count of a UMEM is the number of its sockets and of the references lost, and the UMEM of a
socket is there. -/
theorem every_resource_has_an_owner {w : World} (hrun : Run .start w) :
    w.process.account = (w.umems.map XskUmem.owned).sum + (w.sockets.map XskSocket.owned).sum
        + lost w.process.notes
      ∧ (∀ r, w.process.account r = 0 ∨ w.process.account r = 1)
      ∧ (∀ u ∈ w.umems, w.refcount u
        = w.sockets.countP (fun x => x.umem = u) + w.process.notes.count (.referenceLost u))
      ∧ ∀ x ∈ w.sockets, x.umem ∈ w.umems := by
  have h := balanced_start.run hrun
  refine ⟨h.account, fun r => ?_, h.refcount, h.live⟩
  have hnonneg : 0 ≤ w.process.account r := h.account_nonneg r
  have hsingle := h.single r
  split_ifs at hsingle <;> omega

/-- A UMEM is not created because the second ring is not mapped; then one is, and a socket on it. -/
theorem every_resource_has_an_owner_one : ∃ w, Run .start w
    ∧ w.process.notes = [.fillRingLost 2] ∧ w.umems = [⟨3, 4, 5, 6⟩]
    ∧ w.sockets = [⟨7, 4, ⟨3, 4, 5, 6⟩, some 8, none, some (11, 10)⟩]
    ∧ w.process.account = XskUmem.owned ⟨3, 4, 5, 6⟩
      + XskSocket.owned ⟨7, 4, ⟨3, 4, 5, 6⟩, some 8, none, some (11, 10)⟩ + Pi.single (.mapping 2) 1
    ∧ (∀ r, w.process.account r = 0 ∨ w.process.account r = 1)
    ∧ w.refcount ⟨3, 4, 5, 6⟩ = 1 := by
  let w₁ := World.start.createUmem
    [.ok 0, .ok 3, .ok 0, .ok 0, .ok 0, .ok 128, .ok 0, .error 11] false 4096 true
  let w₂ := w₁.createUmem [.ok 0, .ok 3, .ok 0, .ok 0, .ok 0, .ok 128] false 4096 true
  have humem : (⟨3, 4, 5, 6⟩ : XskUmem) ∈ w₂.umems := by decide +kernel
  let w₃ := w₂.createSocket [.ok 0, .ok 2, .ok 0, .ok 128] ⟨3, 4, 5, 6⟩ true false none
  have hrun : Run .start w₃ :=
    ((Relation.ReflTransGen.single (.createUmem _ _ _ _)).tail (.createUmem _ _ _ _)).tail
      (.createSocket _ humem _ _ _)
  have hnotes : w₃.process.notes = [.fillRingLost 2] := by decide +kernel
  have humems : w₃.umems = [⟨3, 4, 5, 6⟩] := by decide +kernel
  have hsockets : w₃.sockets = [⟨7, 4, ⟨3, 4, 5, 6⟩, some 8, none, some (11, 10)⟩] := by decide +kernel
  obtain ⟨haccount, hsingle, hcount, _⟩ := every_resource_has_an_owner hrun
  rw [humems, hsockets, hnotes] at haccount
  refine ⟨w₃, hrun, hnotes, humems, hsockets, ?_, hsingle, ?_⟩
  · rw [haccount]
    simp [Note.lost]
  · rw [hcount _ (humems ▸ List.mem_singleton_self _), hsockets, hnotes]
    decide

/-! ### A reference that is lost -/

/-- Notes stay. -/
lemma Step.notes {w w' : World} (h : Balanced w) (hstep : Step w w') :
    ∃ notes, w'.process.notes = w.process.notes ++ notes := by
  cases hstep with
  | createUmem replies missing size aligned =>
      obtain ⟨_, notes, _, hnotes, _⟩ :=
        brings_xskUmemCreate missing size aligned (w.facing replies) (le_refl w.process.fresh)
      exact ⟨notes, hnotes⟩
  | @deleteUmem replies u hu =>
      obtain ⟨_, notes, _, hnotes, _⟩ :=
        brings_xskUmemDelete u (w.refcount u) (w.facing replies) (le_refl w.process.fresh)
      exact ⟨notes, hnotes⟩
  | @createSocket replies umem humem rx tx libbpfFlags =>
      obtain ⟨_, notes, _, hnotes, _⟩ :=
        brings_xskSocketCreate (h.named umem humem).2 (w.refcount umem) rx tx libbpfFlags
          (w.facing replies) (le_refl w.process.fresh)
      exact ⟨notes, hnotes⟩
  | @deleteSocket replies x hx =>
      obtain ⟨_, notes, _, hnotes, _⟩ :=
        brings_xskSocketDelete x (w.refcount x.umem) (w.facing replies) (le_refl w.process.fresh)
      exact ⟨notes, hnotes⟩

lemma xskUmemDelete_busy {u : XskUmem} {refcount : ℕ} (h : refcount ≠ 0) (s : Process Resource Note) :
    xskUmemDelete u refcount s = (-ebusy, s) := by
  rw [xskUmemDelete, if_pos h]
  rfl

/-- A UMEM of which a reference is lost. -/
def Stuck (u : XskUmem) (w : World) : Prop :=
  u ∈ w.umems ∧ .referenceLost u ∈ w.process.notes

lemma Stuck.refcount {u : XskUmem} {w : World} (hu : Stuck u w) (h : Balanced w) : w.refcount u ≠ 0 := by
  rw [h.refcount u hu.1]
  have := List.count_pos_iff.mpr hu.2
  omega

lemma Stuck.step {u : XskUmem} {w w' : World} (hu : Stuck u w) (h : Balanced w) (hstep : Step w w') :
    Stuck u w' := by
  refine ⟨?_, ?_⟩
  · cases hstep with
    | createUmem replies missing size aligned => exact List.mem_append_right _ hu.1
    | @deleteUmem replies v hv =>
        by_cases heq : v = u
        · subst heq
          rw [World.deleteUmem, xskUmemDelete_busy (hu.refcount h)]
          exact hu.1
        · show u ∈ if _ then w.umems.erase v else w.umems
          split_ifs
          · exact (List.mem_erase_of_ne fun h => heq h.symm).mpr hu.1
          · exact hu.1
    | createSocket replies humem rx tx libbpfFlags => exact hu.1
    | deleteSocket replies hx => exact hu.1
  · obtain ⟨notes, hnotes⟩ := hstep.notes h
    rw [hnotes]
    exact List.mem_append_left _ hu.2

lemma Stuck.run {u : XskUmem} {w w' : World} (hu : Stuck u w) (h : Balanced w) (hrun : Run w w') :
    Stuck u w' := by
  induction hrun with
  | refl => exact hu
  | tail hrun hstep ih => exact ih.step (h.run hrun) hstep

/-- `socket` is refused for a further socket. -/
lemma xskSocketCreate_refused {umem : XskUmem} {refcount : ℕ} (hshared : refcount ≠ 0) {rx tx : Bool}
    (hring : (rx || tx) = true) (value code : ℕ) (replies : List Reply) (s : Process Resource Note) :
    (xskSocketCreate umem refcount rx tx (some inhibitProgLoad)
      { s with replies := .ok value :: .error code :: replies }).2.notes
      = s.notes ++ [.referenceLost umem] := by
  have hflags : ¬((some inhibitProgLoad).getD 0 &&& ~~~inhibitProgLoad ≠ 0) := by decide
  have hinhibit : ¬(refcount ≠ 0
      ∧ (!decide ((some inhibitProgLoad).getD 0 &&& inhibitProgLoad ≠ 0)) = true) := by
    rintro ⟨_, h⟩
    exact absurd h (by decide)
  unfold xskSocketCreate
  rw [if_neg (by simp [hring])]
  simp only [if_neg hflags, if_neg hinhibit, if_pos (Nat.pos_of_ne_zero hshared)]
  rfl

/-- **A refused socket.**  If `socket` is refused when a UMEM that has a socket is to have another one,
`xsk_umem__delete` will not delete the UMEM any more, whatever is deleted before. -/
theorem refused_socket_keeps_the_umem {w w' : World} (hrun : Run .start w) {u : XskUmem}
    (hu : u ∈ w.umems) (hshared : w.refcount u ≠ 0) {rx tx : Bool} (hring : (rx || tx) = true)
    (value code : ℕ) (replies : List Reply)
    (hrun' : Run (w.createSocket (.ok value :: .error code :: replies) u rx tx (some inhibitProgLoad)) w') :
    u ∈ w'.umems ∧ ∀ replies, (xskUmemDelete u (w'.refcount u) (w'.facing replies)).1 = -ebusy := by
  have h := balanced_start.run hrun
  have hstuck : Stuck u (w.createSocket (.ok value :: .error code :: replies) u rx tx
      (some inhibitProgLoad)) := by
    refine ⟨hu, ?_⟩
    show _ ∈ (xskSocketCreate _ _ _ _ _ _).2.notes
    rw [World.facing, xskSocketCreate_refused hshared hring]
    exact List.mem_append_right _ (List.mem_singleton_self _)
  have h₁ := h.step (.createSocket (.ok value :: .error code :: replies) hu rx tx (some inhibitProgLoad))
  refine ⟨(hstuck.run h₁ hrun').1, fun replies => ?_⟩
  rw [xskUmemDelete_busy ((hstuck.run h₁ hrun').refcount (h₁.run hrun'))]

/-- A UMEM with a socket; another one is refused; the socket is deleted, and the UMEM still cannot be. -/
theorem refused_socket_keeps_the_umem_one : ∃ w u, Run .start w ∧ w.sockets = [] ∧ u ∈ w.umems
    ∧ ∀ replies, (xskUmemDelete u (w.refcount u) (w.facing replies)).1 = -ebusy := by
  let w₁ := World.start.createUmem [.ok 0, .ok 3, .ok 0, .ok 0, .ok 0, .ok 128] false 4096 true
  have humem : (⟨0, 1, 2, 3⟩ : XskUmem) ∈ w₁.umems := by decide +kernel
  let w₂ := w₁.createSocket [.ok 0, .ok 2, .ok 0, .ok 128] ⟨0, 1, 2, 3⟩ true false none
  have hrun : Run .start w₂ :=
    (Relation.ReflTransGen.single (.createUmem _ _ _ _)).tail (.createSocket _ humem _ _ _)
  have humem' : (⟨0, 1, 2, 3⟩ : XskUmem) ∈ w₂.umems := by decide +kernel
  let w₃ := w₂.createSocket [.ok 0, .error 23] ⟨0, 1, 2, 3⟩ true false (some inhibitProgLoad)
  have hsocket : (⟨4, 1, ⟨0, 1, 2, 3⟩, some 5, none, some (8, 7)⟩ : XskSocket) ∈ w₃.sockets := by
    decide +kernel
  let w₄ := w₃.deleteSocket [.ok 0, .ok 128] ⟨4, 1, ⟨0, 1, 2, 3⟩, some 5, none, some (8, 7)⟩
  have hrun' : Run w₃ w₄ := .single (.deleteSocket _ hsocket)
  have hkept := refused_socket_keeps_the_umem hrun humem' (by decide +kernel) (by decide) 0 23 [] hrun'
  exact ⟨w₄, _, (hrun.tail (.createSocket _ humem' _ _ _)).trans hrun', by decide +kernel, hkept⟩

end Xsk
