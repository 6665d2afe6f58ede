import ZkvmRv64.Binfmt.Image

/-
  ZkvmRv64.Exec.Monitor — `MemoryMonitor` (exec/monitor.rs): the mediator between the
  executor and the memory image. Loads read the image; stores only add `(addr, data)`
  records to the pending set `pending_writes` (a `BTreeSet<MemStore>`), which `commit`
  applies to the image byte by byte, in the set's order, after `save_op` has left the
  instruction's `OpCodeResult`. Registers live in the image at `get_register_addr(i)`, and the
  first read of `x2` bootstraps it to `STACK_INITIAL_ADDRESS`.

  Each Rust function is a Lean function of the same name in camelCase: those that may panic
  (an `assert_eq!`, an `unwrap`) come to an `Outcome`, those that change the monitor return
  it. The family `load_u16` / `load_u32` / `load_u64` is `loadLe` at each width, and likewise
  `storeLe` for the stores. `load_string`'s unbounded loop runs on fuel, enough for every
  address once.
-/

namespace ZkvmRv64

/-- `WORD_SIZE` and `DOUBLE_WORD_SIZE` of `risc0_zkvm_platform`. -/
def WORD_SIZE : Nat := 4
def DOUBLE_WORD_SIZE : Nat := 8

/-- `SyscallRecord` (exec/mod.rs, not in the sources): the monitor only keeps it, so none of
    its fields is modelled. -/
structure SyscallRecord where
  mk ::
  deriving DecidableEq, Repr

/-- `OpCodeResult` (exec/mod.rs, not in the sources): the monitor reads only its syscall. -/
structure OpCodeResult where
  syscall : Option SyscallRecord
  deriving DecidableEq, Repr

/-! ## The pending set -/

/-- `MemStore`: one pending byte write. -/
structure MemStore where
  addr : BitVec 64
  data : BitVec 8
  deriving DecidableEq, Repr

/-- A `MemStore`'s rank in its derived `Ord` (by `addr`, then by `data`). -/
def MemStore.key (s : MemStore) : Nat := s.addr.toNat * 256 + s.data.toNat

theorem MemStore.key_inj {s t : MemStore} (h : s.key = t.key) : s = t := by
  have := s.data.isLt; have := t.data.isLt
  simp only [key] at h
  have ha := BitVec.eq_of_toNat_eq (show s.addr.toNat = t.addr.toNat by omega)
  have hd := BitVec.eq_of_toNat_eq (show s.data.toNat = t.data.toNat by omega)
  cases s; cases t; simp_all

/-- `BTreeSet::insert`: `x` goes in its place in the order, unless it is there already. -/
def insertStore (x : MemStore) : List MemStore → List MemStore
  | [] => [x]
  | y :: ys =>
    if x.key < y.key then x :: y :: ys
    else if x.key = y.key then y :: ys
    else y :: insertStore x ys

theorem mem_insertStore {x y : MemStore} : ∀ {l : List MemStore}, y ∈ insertStore x l ↔ y = x ∨ y ∈ l
  | [] => by simp [insertStore]
  | z :: zs => by
    simp only [insertStore]
    split
    · simp
    · split
      · next h => have := MemStore.key_inj h; subst this; simp
      · simp only [List.mem_cons, mem_insertStore]; exact or_left_comm

theorem sorted_insertStore (x : MemStore) :
    ∀ {l : List MemStore}, l.Pairwise (fun a b => a.key < b.key) →
      (insertStore x l).Pairwise (fun a b => a.key < b.key)
  | [], _ => by simp [insertStore]
  | y :: ys, h => by
    rw [List.pairwise_cons] at h
    simp only [insertStore]
    by_cases hx : x.key < y.key
    · rw [if_pos hx]
      refine List.Pairwise.cons (fun z hz => ?_) (List.Pairwise.cons h.1 h.2)
      rcases List.mem_cons.mp hz with rfl | hz
      · exact hx
      · exact Nat.lt_trans hx (h.1 z hz)
    · rw [if_neg hx]
      by_cases he : x.key = y.key
      · rw [if_pos he]; exact List.Pairwise.cons h.1 h.2
      · rw [if_neg he]
        refine List.Pairwise.cons (fun z hz => ?_) (sorted_insertStore x h.2)
        rcases mem_insertStore.mp hz with rfl | hz
        · omega
        · exact h.1 z hz

/-- `BTreeSet<MemStore>`: its elements in ascending order, each once. -/
structure PendingWrites where
  elems : List MemStore
  sorted : elems.Pairwise (fun a b => a.key < b.key)

def PendingWrites.empty : PendingWrites := ⟨[], .nil⟩

def PendingWrites.insert (p : PendingWrites) (x : MemStore) : PendingWrites :=
  ⟨insertStore x p.elems, sorted_insertStore x p.sorted⟩

@[simp] theorem PendingWrites.mem_insert {p : PendingWrites} {x y : MemStore} :
    y ∈ (p.insert x).elems ↔ y = x ∨ y ∈ p.elems := mem_insertStore

/-! ## The monitor -/

structure MemoryMonitor where
  image : MemoryImage
  pendingWrites : PendingWrites
  opResult : Option OpCodeResult
  syscalls : List SyscallRecord
  initial : Bool

/-- `get_register_addr`: `x_idx` lives at `SYSTEM.start + 8 * idx`. -/
def getRegisterAddr (P : Platform) (idx : Nat) : BitVec 64 :=
  BitVec.ofNat 64 (P.SYSTEM_start + idx * DOUBLE_WORD_SIZE)

namespace MemoryMonitor

def new (image : MemoryImage) : MemoryMonitor := ⟨image, .empty, none, [], false⟩

def loadU8 (m : MemoryMonitor) (addr : BitVec 64) : Outcome (BitVec 8) := do
  let v ← unwrap (m.image.memorySpace.readMem addr .Byte)
  return v.setWidth 8

/-- `array::from_fn(|idx| self.load_u8(...))` over the given addresses. -/
def loadBytes (m : MemoryMonitor) : List (BitVec 64) → Outcome (List (BitVec 8))
  | [] => .ret []
  | a :: as => do
    let b ← m.loadU8 a
    let bs ← m.loadBytes as
    return b :: bs

/-- `load_array::<N>(addr)`: the bytes at `addr + idx`, `idx < N`. -/
def loadArray (m : MemoryMonitor) (addr : BitVec 64) (N : Nat) : Outcome (List (BitVec 8)) :=
  m.loadBytes ((List.range N).map fun idx => addr + BitVec.ofNat 64 idx)

/-- `load_u16` / `load_u32` / `load_u64`, the value widened to `u64`: assert that `addr` is
    a multiple of `n`, then read `n` bytes, little-endian. -/
def loadLe (m : MemoryMonitor) (n : Nat) (addr : BitVec 64) : Outcome (BitVec 64) := do
  assertEq (addr.toNat % n) 0 "unaligned load"
  return fromLeBytes (← m.loadArray addr n)

def loadU16 (m : MemoryMonitor) (addr : BitVec 64) : Outcome (BitVec 64) := m.loadLe 2 addr
def loadU32 (m : MemoryMonitor) (addr : BitVec 64) : Outcome (BitVec 64) := m.loadLe WORD_SIZE addr
def loadU64 (m : MemoryMonitor) (addr : BitVec 64) : Outcome (BitVec 64) :=
  m.loadLe DOUBLE_WORD_SIZE addr

def storeU8 (m : MemoryMonitor) (addr : BitVec 64) (data : BitVec 8) : MemoryMonitor :=
  { m with pendingWrites := m.pendingWrites.insert ⟨addr, data⟩ }

/-- The `for_each` of `store_region`, from the `i`-th byte of the slice on. -/
def storeBytes (m : MemoryMonitor) (addr : BitVec 64) (i : Nat) : List (BitVec 8) → MemoryMonitor
  | [] => m
  | x :: xs => (m.storeU8 (addr + BitVec.ofNat 64 i) x).storeBytes addr (i + 1) xs

def storeRegion (m : MemoryMonitor) (addr : BitVec 64) (slice : List (BitVec 8)) : MemoryMonitor :=
  m.storeBytes addr 0 slice

/-- `store_u16` / `store_u32` / `store_u64` of the low `n` bytes of `data`: assert that
    `addr` is a multiple of `n`, then `store_region(addr, &data.to_le_bytes())`. -/
def storeLe (m : MemoryMonitor) (n : Nat) (addr data : BitVec 64) : Outcome MemoryMonitor := do
  assertEq (addr.toNat % n) 0 "unaligned store"
  return m.storeRegion addr (toLeBytes n data)

def storeU16 (m : MemoryMonitor) (addr : BitVec 64) (data : BitVec 16) : Outcome MemoryMonitor :=
  m.storeLe 2 addr (data.setWidth 64)
def storeU32 (m : MemoryMonitor) (addr : BitVec 64) (data : BitVec 32) : Outcome MemoryMonitor :=
  m.storeLe WORD_SIZE addr (data.setWidth 64)
def storeU64 (m : MemoryMonitor) (addr data : BitVec 64) : Outcome MemoryMonitor :=
  m.storeLe DOUBLE_WORD_SIZE addr data

/-- `load_register`: the first read of `x2` (while `initial` is unset) stores
    `STACK_INITIAL_ADDRESS` to its slot, pending, and returns it without reading the slot. -/
def loadRegister (P : Platform) (m : MemoryMonitor) (idx : Nat) :
    Outcome (BitVec 64 × MemoryMonitor) :=
  if idx = 2 ∧ m.initial = false then do
    let m ← { m with initial := true }.storeU64 (getRegisterAddr P idx)
      (BitVec.ofNat 64 P.STACK_INITIAL_ADDRESS)
    return (BitVec.ofNat 64 P.STACK_INITIAL_ADDRESS, m)
  else do
    let v ← m.loadU64 (getRegisterAddr P idx)
    return (v, m)

/-- `load_registers`: `idxs.map(|idx| self.load_register(idx))`, from the first index on. -/
def loadRegisters (P : Platform) (m : MemoryMonitor) : List Nat → Outcome (List (BitVec 64) × MemoryMonitor)
  | [] => .ret ([], m)
  | idx :: idxs => do
    let (v, m) ← m.loadRegister P idx
    let (vs, m) ← m.loadRegisters P idxs
    return (v :: vs, m)

/-- `store_register`: a store of 0 to `x2` stores `STACK_INITIAL_ADDRESS` instead. -/
def storeRegister (P : Platform) (m : MemoryMonitor) (idx : Nat) (data : BitVec 64) :
    Outcome MemoryMonitor :=
  if idx = 2 ∧ data = 0 then
    m.storeU64 (getRegisterAddr P idx) (BitVec.ofNat 64 P.STACK_INITIAL_ADDRESS)
  else m.storeU64 (getRegisterAddr P idx) data

/-- The loop of `load_string`, for at most `fuel` more bytes: `s` holds the bytes read so far;
    `none` when no NUL byte came within the fuel. -/
def loadStringLoop (m : MemoryMonitor) (s : List (BitVec 8)) :
    Nat → BitVec 64 → Outcome (Option (List (BitVec 8)))
  | 0, _ => .ret none
  | fuel + 1, addr => do
    let b ← m.loadU8 addr
    if b = 0 then return some s
    else m.loadStringLoop (s ++ [b]) fuel (addr + 1)

/-- `load_string`: the bytes from `addr` up to the first NUL, through `String::from_utf8`
    (`from_utf8`, of std). `addr += 1` wraps, so a loop that has read `2 ^ 64` bytes, none of
    them NUL, has read every address and reads them again for ever: `none` is a loop that does
    not end. -/
def loadString (from_utf8 : List (BitVec 8) → Except String String) (m : MemoryMonitor)
    (addr : BitVec 64) : Outcome (Option (Except String String)) := do
  let s ← m.loadStringLoop [] (2 ^ 64) addr
  return s.map from_utf8

def saveOp (m : MemoryMonitor) (opResult : OpCodeResult) : MemoryMonitor :=
  { m with opResult := some opResult }

/-- The loop of `commit`: each pending record, in the set's order, written as a byte (a write
    outside every region is only reported). -/
def applyStores (space : MemorySpace) : List MemStore → MemorySpace
  | [] => space
  | op :: ops => applyStores (space.writeMem op.addr .Byte (op.data.setWidth 64)).1 ops

def commit (m : MemoryMonitor) : Outcome MemoryMonitor := do
  let memorySpace := applyStores m.image.memorySpace m.pendingWrites.elems
  let opResult ← unwrap m.opResult
  return { m with image := ⟨memorySpace⟩, pendingWrites := .empty, opResult := none,
                  syscalls := m.syscalls ++ opResult.syscall.toList }

def clearSegment (m : MemoryMonitor) : MemoryMonitor := { m with syscalls := [] }

def clearSession (m : MemoryMonitor) : MemoryMonitor :=
  { m.clearSegment with pendingWrites := .empty }

/-! ## `impl Memory for MemoryMonitor` -/

def readMem (m : MemoryMonitor) (addr : BitVec 64) (size : MemAccessSize) :
    Outcome (Option (BitVec 64)) :=
  match size with
  | .Byte => do return some ((← m.loadU8 addr).setWidth 64)
  | .HalfWord => do return some (← m.loadU16 addr)
  | .Word => do return some (← m.loadU32 addr)
  | .DoubleWord => do return some (← m.loadU64 addr)

def writeMem (m : MemoryMonitor) (addr : BitVec 64) (size : MemAccessSize) (store_data : BitVec 64) :
    Outcome (Bool × MemoryMonitor) :=
  match size with
  | .Byte => .ret (true, m.storeU8 addr (store_data.setWidth 8))
  | .HalfWord => do return (true, ← m.storeU16 addr (store_data.setWidth 16))
  | .Word => do return (true, ← m.storeU32 addr (store_data.setWidth 32))
  | .DoubleWord => do return (true, ← m.storeU64 addr store_data)

/-! ## Frame lemmas -/

@[simp] theorem storeU8_image (m : MemoryMonitor) (a : BitVec 64) (d : BitVec 8) :
    (m.storeU8 a d).image = m.image := rfl
@[simp] theorem storeU8_opResult (m : MemoryMonitor) (a : BitVec 64) (d : BitVec 8) :
    (m.storeU8 a d).opResult = m.opResult := rfl
@[simp] theorem storeU8_initial (m : MemoryMonitor) (a : BitVec 64) (d : BitVec 8) :
    (m.storeU8 a d).initial = m.initial := rfl
@[simp] theorem storeU8_pending (m : MemoryMonitor) (a : BitVec 64) (d : BitVec 8) :
    (m.storeU8 a d).pendingWrites = m.pendingWrites.insert ⟨a, d⟩ := rfl
@[simp] theorem saveOp_image (m : MemoryMonitor) (r : OpCodeResult) :
    (m.saveOp r).image = m.image := rfl
@[simp] theorem saveOp_pending (m : MemoryMonitor) (r : OpCodeResult) :
    (m.saveOp r).pendingWrites = m.pendingWrites := rfl
@[simp] theorem saveOp_initial (m : MemoryMonitor) (r : OpCodeResult) :
    (m.saveOp r).initial = m.initial := rfl

/-! Loads read the image and nothing else. -/

theorem loadU8_congr {m m' : MemoryMonitor} (h : m'.image = m.image) (a : BitVec 64) :
    m'.loadU8 a = m.loadU8 a := by
  simp [loadU8, h]

theorem loadBytes_congr {m m' : MemoryMonitor} (h : m'.image = m.image) :
    ∀ as : List (BitVec 64), m'.loadBytes as = m.loadBytes as
  | [] => rfl
  | a :: as => by simp [loadBytes, loadU8_congr h, loadBytes_congr h as]

theorem loadLe_congr {m m' : MemoryMonitor} (h : m'.image = m.image) (n : Nat) (a : BitVec 64) :
    m'.loadLe n a = m.loadLe n a := by
  simp [loadLe, loadArray, loadBytes_congr h]

theorem readMem_congr {m m' : MemoryMonitor} (h : m'.image = m.image) (a : BitVec 64)
    (sz : MemAccessSize) : m'.readMem a sz = m.readMem a sz := by
  cases sz <;> simp [readMem, loadU16, loadU32, loadU64, loadU8_congr h, loadLe_congr h]

end MemoryMonitor

end ZkvmRv64
