import ZkvmRv64.Exec.Monitor

/-
  ZkvmRv64.Exec.Commit — what one step's stores do to the image.

  A step issues stores (`StoreOp`: `store_u8`, `store_u16`, `store_u32`, `store_u64`,
  `store_region`, `store_register`, `write_mem`); each adds the records `StoreOp.bytes` to
  the pending set and leaves the image as it was. `commit` then writes the set's records to
  the image in the set's order, `(addr, data)` ascending. Applying the same records in issue
  order is `applyStores` over `issued`, so the two differ only in which record of an address
  is written last (`read_applyStores`: the byte read back is the last record of its address,
  `lastAt`): in the set, the one with the largest byte (`lastAt_max_of_sorted`).

  Proved:
  - `adds_runStores`: running the stores leaves the image and the `OpCodeResult` as they were
    and adds exactly `issued` to the pending set.
  - `commit_writes_largest_byte` (the contract as the code has it): loads between the stores
    see the start image; after `save_op` and `commit`, a byte address the step stored to holds
    the largest byte stored to it, any other keeps its byte, and when the step's stores to each
    address agree, the image is the start image with the stores applied in issue order.
  - `commit_keeps_larger_byte`: two byte stores to one address, 5 then 3: 5 is committed.
-/

namespace ZkvmRv64

open MemoryMonitor

/-! ## `applyStores`, read back -/

/-- The byte of the last record of address `b` in `l`. -/
def lastAt (b : BitVec 64) : List MemStore → Option (BitVec 8)
  | [] => none
  | x :: xs =>
    match lastAt b xs with
    | some d => some d
    | none => if x.addr = b then some x.data else none

theorem lastAt_cons (b : BitVec 64) (x : MemStore) (xs : List MemStore) :
    lastAt b (x :: xs) =
      match lastAt b xs with
      | some d => some d
      | none => if x.addr = b then some x.data else none := rfl

theorem setWidth_and_laneMask (d : BitVec 8) : d.setWidth 64 &&& laneMask 8 = d.setWidth 64 := by
  ext ⟨i, hi⟩
  simp only [laneMask, BitVec.getLsbD_and, BitVec.getLsbD_setWidth, BitVec.getLsbD_ofNat,
    Nat.testBit_two_pow_sub_one]
  by_cases h : i < 8
  · simp [h, hi]
  · simp [h, BitVec.getLsbD_ge d i (by omega)]

theorem map_const_of_isSome_eq {α β : Type} {o o' : Option α} (h : o.isSome = o'.isSome) (c : β) :
    o.map (fun _ => c) = o'.map (fun _ => c) := by
  cases o <;> cases o' <;> simp_all

theorem read_write_byte (s : MemorySpace) (a b : BitVec 64) (d : BitVec 8) :
    (s.writeMem a .Byte (d.setWidth 64)).1.readMem b .Byte =
      if b = a then (s.readMem b .Byte).map (fun _ => d.setWidth 64) else s.readMem b .Byte := by
  simp only [MemorySpace.writeMem, MemorySpace.readMem, readRegions_writeRegions,
    MemAccessSize.width, MemAccessSize.bytes, setWidth_and_laneMask]
  split <;> simp_all

theorem isSome_read_write (s : MemorySpace) (a b v : BitVec 64) (sz sz' : MemAccessSize) :
    ((s.writeMem a sz v).1.readMem b sz').isSome = (s.readMem b sz').isSome :=
  readRegions_writeRegions_isSome a b v sz sz' s.regions

theorem isSome_read_applyStores (b : BitVec 64) (sz : MemAccessSize) :
    ∀ (s : MemorySpace) (l : List MemStore), ((applyStores s l).readMem b sz).isSome = (s.readMem b sz).isSome
  | _, [] => rfl
  | s, x :: xs => by
    rw [applyStores, isSome_read_applyStores b sz, isSome_read_write]

/-- The byte read back after applying records is that of the last record of its address. -/
theorem read_applyStores (b : BitVec 64) :
    ∀ (s : MemorySpace) (l : List MemStore), (applyStores s l).readMem b .Byte =
      match lastAt b l with
      | some d => (s.readMem b .Byte).map fun _ => d.setWidth 64
      | none => s.readMem b .Byte
  | _, [] => rfl
  | s, x :: xs => by
    rw [applyStores, read_applyStores b _ xs, lastAt_cons]
    rcases lastAt b xs with _ | d
    · rw [read_write_byte]
      by_cases h : x.addr = b
      · simp [h]
      · simp [h, Ne.symm h]
    · exact map_const_of_isSome_eq (isSome_read_write _ _ _ _ _ _) _

theorem lastAt_mem {b : BitVec 64} {d : BitVec 8} : ∀ {l : List MemStore}, lastAt b l = some d → ⟨b, d⟩ ∈ l
  | [], h => by simp [lastAt] at h
  | ⟨a, d'⟩ :: xs, h => by
    rw [lastAt_cons] at h
    rcases hl : lastAt b xs with _ | d''
    · rw [hl] at h
      by_cases ha : a = b
      · simp only [ha, if_true, Option.some.injEq] at h; subst ha h; exact List.mem_cons_self _ _
      · simp [ha] at h
    · rw [hl] at h; cases h; exact List.mem_cons_of_mem _ (lastAt_mem hl)

theorem lastAt_eq_none {b : BitVec 64} : ∀ {l : List MemStore}, lastAt b l = none ↔ ∀ e ∈ l, e.addr ≠ b
  | [] => by simp [lastAt]
  | x :: xs => by
    rw [lastAt_cons]
    rcases hl : lastAt b xs with _ | d
    · have := lastAt_eq_none.mp hl
      by_cases hx : x.addr = b <;> simp [hx]
      exact this
    · simp only [reduceCtorEq, false_iff]
      exact fun h => h _ (List.mem_cons_of_mem _ (lastAt_mem hl)) rfl

/-- In a list ascending by `(addr, data)`, such as the pending set, the last record of an
    address carries the largest byte stored to it. -/
theorem lastAt_max_of_sorted {b : BitVec 64} {d : BitVec 8} : ∀ {l : List MemStore},
    l.Pairwise (fun x y => x.key < y.key) → lastAt b l = some d →
      ∀ e ∈ l, e.addr = b → e.data.toNat ≤ d.toNat
  | [], _, h => by simp [lastAt] at h
  | x :: xs, hs, h => by
    rw [List.pairwise_cons] at hs
    rw [lastAt_cons] at h
    intro e he heb
    rcases hl : lastAt b xs with _ | d'
    · rw [hl] at h
      rcases List.mem_cons.mp he with rfl | he
      · simp only [heb, if_true, Option.some.injEq] at h; subst h; exact Nat.le_refl _
      · exact absurd heb (lastAt_eq_none.mp hl e he)
    · rw [hl] at h; cases h
      rcases List.mem_cons.mp he with rfl | he
      · have := hs.1 _ (lastAt_mem hl)
        simp only [MemStore.key, heb] at this; omega
      · exact lastAt_max_of_sorted hs.2 hl e he heb

/-! ## The largest byte of an address -/

/-- The largest byte among the records of address `b` in `l`. -/
def maxAt (b : BitVec 64) : List MemStore → Option (BitVec 8)
  | [] => none
  | x :: xs =>
    if x.addr = b then
      match maxAt b xs with
      | some d => if x.data.toNat ≤ d.toNat then some d else some x.data
      | none => some x.data
    else maxAt b xs

/-- `maxAt` finds nothing exactly when no record names `b`. -/
theorem maxAt_eq_none {b : BitVec 64} : ∀ {l : List MemStore}, maxAt b l = none ↔ ∀ e ∈ l, e.addr ≠ b
  | [] => by simp [maxAt]
  | x :: xs => by
    by_cases hx : x.addr = b
    · simp only [maxAt, if_pos hx]
      refine iff_of_false (by split <;> (try split) <;> nofun) fun h => h x (List.mem_cons_self _ _) hx
    · simp [maxAt, hx, maxAt_eq_none]

/-- The byte `maxAt` finds is one stored to `b` in `l`, and none stored to `b` is larger. -/
theorem maxAt_eq_some {b : BitVec 64} {d : BitVec 8} : ∀ {l : List MemStore},
    maxAt b l = some d → ⟨b, d⟩ ∈ l ∧ ∀ e ∈ l, e.addr = b → e.data.toNat ≤ d.toNat
  | [], h => nomatch h
  | x :: xs, h => by
    simp only [List.mem_cons, forall_eq_or_imp]
    by_cases hx : x.addr = b
    · simp only [maxAt, if_pos hx] at h
      have hself : (⟨b, x.data⟩ : MemStore) = x := by rw [← hx]
      rcases hm : maxAt b xs with _ | d'
      · rw [hm] at h
        cases h
        exact ⟨.inl hself, fun _ => Nat.le_refl _, fun e he heb => absurd heb (maxAt_eq_none.mp hm e he)⟩
      · obtain ⟨hmem, hle⟩ := maxAt_eq_some hm
        simp only [hm] at h
        split at h <;> cases h
        · exact ⟨.inr hmem, fun _ => ‹_›, hle⟩
        · exact ⟨.inl hself, fun _ => Nat.le_refl _, fun e he heb => by have := hle e he heb; omega⟩
    · simp only [maxAt, if_neg hx] at h
      obtain ⟨hmem, hle⟩ := maxAt_eq_some h
      exact ⟨.inr hmem, fun heb => absurd heb hx, hle⟩

theorem maxAt_append_of_none {b : BitVec 64} {l' : List MemStore} (h : maxAt b l' = none) :
    ∀ l : List MemStore, maxAt b (l ++ l') = maxAt b l
  | [] => h
  | x :: xs => by rw [List.cons_append, maxAt, maxAt, maxAt_append_of_none h xs]

theorem maxAt_none_append {b : BitVec 64} {l' : List MemStore} :
    ∀ {l : List MemStore}, maxAt b l = none → maxAt b (l ++ l') = maxAt b l'
  | [], _ => rfl
  | x :: xs, h => by
    have hx := maxAt_eq_none.mp h
    rw [List.cons_append, maxAt, if_neg (hx x (List.mem_cons_self _ _)),
      maxAt_none_append (maxAt_eq_none.mpr fun e he => hx e (List.mem_cons_of_mem _ he))]

/-- Two lists of the same records: a sorted one's last record of an address is the other's
    largest. -/
theorem lastAt_eq_maxAt_of_sorted {b : BitVec 64} {l l' : List MemStore}
    (hs : l.Pairwise (fun x y => x.key < y.key)) (hm : ∀ e, e ∈ l ↔ e ∈ l') :
    lastAt b l = maxAt b l' := by
  rcases hl : lastAt b l with _ | d
  · exact (maxAt_eq_none.mpr fun e he => lastAt_eq_none.mp hl e ((hm e).mpr he)).symm
  · have hmem := (hm _).mp (lastAt_mem hl)
    rcases hx : maxAt b l' with _ | d'
    · exact absurd rfl (maxAt_eq_none.mp hx _ hmem)
    · obtain ⟨hmem', hle'⟩ := maxAt_eq_some hx
      have h1' : d'.toNat ≤ d.toNat := lastAt_max_of_sorted hs hl _ ((hm _).mpr hmem') rfl
      have h2' : d.toNat ≤ d'.toNat := hle' _ hmem rfl
      rw [BitVec.eq_of_toNat_eq (show d.toNat = d'.toNat by omega)]

/-- When the records of each address agree, the last one is the largest one. -/
theorem lastAt_eq_maxAt_of_agree {b : BitVec 64} {l : List MemStore}
    (h : ∀ e ∈ l, ∀ e' ∈ l, e.addr = e'.addr → e = e') : lastAt b l = maxAt b l := by
  rcases hl : lastAt b l with _ | d
  · exact (maxAt_eq_none.mpr (lastAt_eq_none.mp hl)).symm
  · rcases hx : maxAt b l with _ | d'
    · exact absurd rfl (maxAt_eq_none.mp hx _ (lastAt_mem hl))
    · have := h _ (lastAt_mem hl) _ (maxAt_eq_some hx).1 rfl
      simp only [MemStore.mk.injEq, true_and] at this; rw [this]

/-! ## A step's stores -/

/-- The store operations of the monitor a step can issue, with their arguments. -/
inductive StoreOp where
  | storeU8 (addr : BitVec 64) (data : BitVec 8)
  | storeU16 (addr : BitVec 64) (data : BitVec 16)
  | storeU32 (addr : BitVec 64) (data : BitVec 32)
  | storeU64 (addr data : BitVec 64)
  | storeRegion (addr : BitVec 64) (slice : List (BitVec 8))
  | storeRegister (idx : Nat) (data : BitVec 64)
  | writeMem (addr : BitVec 64) (size : MemAccessSize) (store_data : BitVec 64)

def StoreOp.run (P : Platform) (m : MemoryMonitor) : StoreOp → Outcome MemoryMonitor
  | .storeU8 a d => .ret (m.storeU8 a d)
  | .storeU16 a d => m.storeU16 a d
  | .storeU32 a d => m.storeU32 a d
  | .storeU64 a d => m.storeU64 a d
  | .storeRegion a slice => .ret (m.storeRegion a slice)
  | .storeRegister i d => m.storeRegister P i d
  | .writeMem a s v => do return (← m.writeMem a s v).2

def runStores (P : Platform) (m : MemoryMonitor) : List StoreOp → Outcome MemoryMonitor
  | [] => .ret m
  | op :: ops => do runStores P (← op.run P m) ops

/-- The records `store_region(addr, slice)` adds, from the `i`-th byte of the slice on. -/
def regionBytes (addr : BitVec 64) (i : Nat) : List (BitVec 8) → List MemStore
  | [] => []
  | x :: xs => ⟨addr + BitVec.ofNat 64 i, x⟩ :: regionBytes addr (i + 1) xs

/-- The byte writes a store stands for, in order: the little-endian bytes of what it stores,
    from its address. -/
def StoreOp.bytes (P : Platform) : StoreOp → List MemStore
  | .storeU8 a d => [⟨a, d⟩]
  | .storeU16 a d => regionBytes a 0 (toLeBytes 2 (d.setWidth 64))
  | .storeU32 a d => regionBytes a 0 (toLeBytes 4 (d.setWidth 64))
  | .storeU64 a d => regionBytes a 0 (toLeBytes 8 d)
  | .storeRegion a slice => regionBytes a 0 slice
  | .storeRegister i d => regionBytes (getRegisterAddr P i) 0
      (toLeBytes 8 (if i = 2 ∧ d = 0 then BitVec.ofNat 64 P.STACK_INITIAL_ADDRESS else d))
  | .writeMem a .Byte v => [⟨a, v.setWidth 8⟩]
  | .writeMem a .HalfWord v => regionBytes a 0 (toLeBytes 2 ((v.setWidth 16).setWidth 64))
  | .writeMem a .Word v => regionBytes a 0 (toLeBytes 4 ((v.setWidth 32).setWidth 64))
  | .writeMem a .DoubleWord v => regionBytes a 0 (toLeBytes 8 v)

/-- The records of a list of stores, in issue order. -/
def issued (P : Platform) : List StoreOp → List MemStore
  | [] => []
  | op :: ops => op.bytes P ++ issued P ops

/-- `m'` is `m` with the records `rs` added to the pending set: the image, the
    `OpCodeResult` and the bootstrap flag are as they were. -/
structure Adds (m m' : MemoryMonitor) (rs : List MemStore) : Prop where
  image : m'.image = m.image
  opResult : m'.opResult = m.opResult
  initial : m'.initial = m.initial
  mem : ∀ e, e ∈ m'.pendingWrites.elems ↔ e ∈ m.pendingWrites.elems ∨ e ∈ rs

theorem Adds.trans {m m1 m2 : MemoryMonitor} {rs1 rs2 : List MemStore} (h1 : Adds m m1 rs1)
    (h2 : Adds m1 m2 rs2) : Adds m m2 (rs1 ++ rs2) :=
  ⟨h2.image.trans h1.image, h2.opResult.trans h1.opResult, h2.initial.trans h1.initial,
    fun e => by rw [h2.mem, h1.mem, List.mem_append]; exact or_assoc⟩

theorem adds_storeU8 (m : MemoryMonitor) (a : BitVec 64) (d : BitVec 8) :
    Adds m (m.storeU8 a d) [⟨a, d⟩] :=
  ⟨rfl, rfl, rfl, fun e => by simp [or_comm]⟩

theorem adds_storeBytes (addr : BitVec 64) :
    ∀ (xs : List (BitVec 8)) (m : MemoryMonitor) (i : Nat),
      Adds m (m.storeBytes addr i xs) (regionBytes addr i xs)
  | [], m, _ => ⟨rfl, rfl, rfl, by simp [regionBytes, storeBytes]⟩
  | x :: xs, m, i => (adds_storeU8 m _ x).trans (adds_storeBytes addr xs _ (i + 1))

theorem storeLe_eq (m : MemoryMonitor) (n : Nat) (addr data : BitVec 64) :
    m.storeLe n addr data =
      if addr.toNat % n = 0 then .ret (m.storeRegion addr (toLeBytes n data))
      else .panic (assertFailed "unaligned store" (addr.toNat % n) 0) := by
  simp only [storeLe, assertEq]; split <;> rfl

theorem adds_storeLe {m m' : MemoryMonitor} {n : Nat} {addr data : BitVec 64}
    (h : m.storeLe n addr data = .ret m') : Adds m m' (regionBytes addr 0 (toLeBytes n data)) := by
  rw [storeLe_eq] at h
  split at h
  · cases h; exact adds_storeBytes addr _ m 0
  · cases h

theorem StoreOp.adds_run (P : Platform) {m m' : MemoryMonitor} :
    ∀ op : StoreOp, op.run P m = .ret m' → Adds m m' (op.bytes P)
  | .storeU8 a d, h => by cases h; exact adds_storeU8 m a d
  | .storeU16 _ _, h => adds_storeLe h
  | .storeU32 _ _, h => adds_storeLe h
  | .storeU64 _ _, h => adds_storeLe h
  | .storeRegion a slice, h => by cases h; exact adds_storeBytes a slice m 0
  | .storeRegister i d, h => by
    simp only [run, MemoryMonitor.storeRegister] at h
    by_cases hc : i = 2 ∧ d = 0
    · rw [if_pos hc] at h; simp only [bytes, if_pos hc]; exact adds_storeLe h
    · rw [if_neg hc] at h; simp only [bytes, if_neg hc]; exact adds_storeLe h
  | .writeMem a s v, h => by
    simp only [run, Outcome.bind_eq_ret, Outcome.pure_eq, Outcome.ret.injEq] at h
    obtain ⟨⟨ok, m1⟩, h1, rfl⟩ := h
    cases s <;> simp only [MemoryMonitor.writeMem, Outcome.bind_eq_ret, Outcome.pure_eq,
      Outcome.ret.injEq, Prod.mk.injEq] at h1
    · obtain ⟨-, rfl⟩ := h1; exact adds_storeU8 m a _
    all_goals obtain ⟨m2, h2, -, rfl⟩ := h1; exact adds_storeLe h2

theorem adds_runStores (P : Platform) :
    ∀ (ops : List StoreOp) {m m' : MemoryMonitor}, runStores P m ops = .ret m' →
      Adds m m' (issued P ops)
  | [], m, m', h => by cases h; exact ⟨rfl, rfl, rfl, by simp [issued]⟩
  | op :: ops, m, m', h => by
    simp only [runStores, Outcome.bind_eq_ret] at h
    obtain ⟨m1, h1, h2⟩ := h
    exact (StoreOp.adds_run P op h1).trans (adds_runStores P ops h2)

/-! ## The commit -/

theorem commit_saveOp (m : MemoryMonitor) (r : OpCodeResult) :
    (m.saveOp r).commit = .ret { m with
      image := ⟨applyStores m.image.memorySpace m.pendingWrites.elems⟩, pendingWrites := .empty,
      opResult := none, syscalls := m.syscalls ++ r.syscall.toList } := rfl

theorem commit_initial {m m' : MemoryMonitor} (h : m.commit = .ret m') : m'.initial = m.initial := by
  simp only [commit, Outcome.bind_eq_ret, Outcome.pure_eq, Outcome.ret.injEq] at h
  obtain ⟨_, _, rfl⟩ := h
  rfl

/-- With its pending records applied, a byte of the monitor is the largest pending byte of its
    address, or the image's byte when none is pending. -/
theorem read_applied (m : MemoryMonitor) (b : BitVec 64) :
    (applyStores m.image.memorySpace m.pendingWrites.elems).readMem b .Byte =
      match maxAt b m.pendingWrites.elems with
      | some d => (m.image.memorySpace.readMem b .Byte).map fun _ => d.setWidth 64
      | none => m.image.memorySpace.readMem b .Byte := by
  rw [read_applyStores, lastAt_eq_maxAt_of_sorted m.pendingWrites.sorted fun _ => Iff.rfl]

theorem read_applied_of_none {m : MemoryMonitor} {b : BitVec 64} (h : maxAt b m.pendingWrites.elems = none) :
    (applyStores m.image.memorySpace m.pendingWrites.elems).readMem b .Byte =
      m.image.memorySpace.readMem b .Byte := by
  rw [read_applied, h]

/-- Records `rs` added to the pending set and committed: each byte address holds the largest
    byte of its records, those pending before and `rs`, or its old byte when it has none. -/
theorem read_adds {m m1 : MemoryMonitor} {rs : List MemStore} (h : Adds m m1 rs) (b : BitVec 64) :
    (applyStores m1.image.memorySpace m1.pendingWrites.elems).readMem b .Byte =
      match maxAt b (m.pendingWrites.elems ++ rs) with
      | some d => (m.image.memorySpace.readMem b .Byte).map fun _ => d.setWidth 64
      | none => m.image.memorySpace.readMem b .Byte := by
  have hl : lastAt b m1.pendingWrites.elems = maxAt b (m.pendingWrites.elems ++ rs) :=
    lastAt_eq_maxAt_of_sorted m1.pendingWrites.sorted fun e => by simp [h.mem]
  rw [read_applyStores, hl, h.image]

/-- From a monitor with nothing pending, records `rs` added and committed: each byte address
    holds the largest byte of its records in `rs`, or its old byte when it has none. -/
theorem read_commit {m m1 : MemoryMonitor} {rs : List MemStore} (hp : m.pendingWrites.elems = [])
    (h : Adds m m1 rs) (b : BitVec 64) :
    (applyStores m1.image.memorySpace m1.pendingWrites.elems).readMem b .Byte =
      match maxAt b rs with
      | some d => (m.image.memorySpace.readMem b .Byte).map fun _ => d.setWidth 64
      | none => m.image.memorySpace.readMem b .Byte := by
  simpa only [hp, List.nil_append] using read_adds h b

/-- One step's stores, then `save_op` and `commit`, as the code has them. Every load between
    the stores sees the start image. At commit, a byte address the step stored to holds the
    largest byte stored to it during the step, not the last one, and any other byte address
    keeps its byte; when the step's stores to each address agree, the committed image is the
    start image with the stores applied one after another in issue order. -/
theorem commit_writes_largest_byte (P : Platform) {m m' : MemoryMonitor}
    (hp : m.pendingWrites.elems = []) (ops : List StoreOp) (hrun : runStores P m ops = .ret m')
    (r : OpCodeResult) :
    (∀ k mk, runStores P m (ops.take k) = .ret mk → ∀ a sz, mk.readMem a sz = m.readMem a sz) ∧
    ∃ m'', (m'.saveOp r).commit = .ret m'' ∧
      (∀ b, m''.image.memorySpace.readMem b .Byte =
        match maxAt b (issued P ops) with
        | some d => (m.image.memorySpace.readMem b .Byte).map fun _ => d.setWidth 64
        | none => m.image.memorySpace.readMem b .Byte) ∧
      ((∀ e ∈ issued P ops, ∀ e' ∈ issued P ops, e.addr = e'.addr → e = e') →
        ∀ b, m''.image.memorySpace.readMem b .Byte =
          (applyStores m.image.memorySpace (issued P ops)).readMem b .Byte) := by
  have hadds := adds_runStores P ops hrun
  refine ⟨fun k mk hk a sz => readMem_congr (adds_runStores P _ hk).image a sz, _,
    commit_saveOp m' r, read_commit hp hadds, fun hag b => ?_⟩
  rw [show _ = _ from read_commit hp hadds b, read_applyStores, lastAt_eq_maxAt_of_agree hag]

/-- A monitor over one 8-byte region at 0, for the traces. -/
def byteMonitor : MemoryMonitor := .new ⟨⟨[⟨0, 8, VecMemory.zeros 1⟩]⟩⟩

theorem commit_writes_largest_byte_two_stores :
    byteMonitor.pendingWrites.elems = [] ∧
    runStores Platform.small byteMonitor [.storeU8 0 5, .storeU8 0 3] =
      .ret ((byteMonitor.storeU8 0 5).storeU8 0 3) ∧
    ((∀ k mk, runStores Platform.small byteMonitor ([.storeU8 0 5, .storeU8 0 3].take k) = .ret mk →
        ∀ a sz, mk.readMem a sz = byteMonitor.readMem a sz) ∧
      ∃ m'', (((byteMonitor.storeU8 0 5).storeU8 0 3).saveOp ⟨none⟩).commit = .ret m'' ∧
        (∀ b, m''.image.memorySpace.readMem b .Byte =
          match maxAt b (issued Platform.small [.storeU8 0 5, .storeU8 0 3]) with
          | some d => (byteMonitor.image.memorySpace.readMem b .Byte).map fun _ => d.setWidth 64
          | none => byteMonitor.image.memorySpace.readMem b .Byte) ∧
        ((∀ e ∈ issued Platform.small [.storeU8 0 5, .storeU8 0 3],
            ∀ e' ∈ issued Platform.small [.storeU8 0 5, .storeU8 0 3], e.addr = e'.addr → e = e') →
          ∀ b, m''.image.memorySpace.readMem b .Byte =
            (applyStores byteMonitor.image.memorySpace
              (issued Platform.small [.storeU8 0 5, .storeU8 0 3])).readMem b .Byte)) :=
  ⟨rfl, rfl, @commit_writes_largest_byte Platform.small byteMonitor
    ((byteMonitor.storeU8 0 5).storeU8 0 3) rfl [.storeU8 0 5, .storeU8 0 3] rfl ⟨none⟩⟩

/-- Last write does not win: `store_u8(0, 5)` then `store_u8(0, 3)` in one step, then
    `save_op` and `commit`, leave 5 at address 0. -/
theorem commit_keeps_larger_byte :
    (do
      let m ← runStores Platform.small byteMonitor [.storeU8 0 5, .storeU8 0 3]
      let m ← (m.saveOp ⟨none⟩).commit
      m.loadU8 0) = .ret 5 := by
  decide

end ZkvmRv64
