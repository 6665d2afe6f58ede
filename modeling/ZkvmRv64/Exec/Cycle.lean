import ZkvmRv64.Exec.Step
import ZkvmRv64.Rrs.Footprint

/-
  ZkvmRv64.Exec.Cycle — instructions run one after another on the monitor.

  Modelled from the spec (§4.3, steps 1 to 6 and its register file, and §5, "Ordering"), as
  the executor loop of `exec/` is not in the sources. The registers live in the monitor, at
  their slots (`get_register_addr`); rrs's handlers read the hart's register array. So a cycle
  first reads, through `load_registers`, the registers the fetched instruction reads (`x0`
  apart, which reads 0): the first read of `x2` bootstraps it. Then it runs one `step` on
  the monitor, whose stores stay pending, and, when the step returns `Ok`, stores the register
  the step wrote through `store_register` (a 0 for `x2` becomes `STACK_INITIAL_ADDRESS`), and
  calls `save_op` with the instruction's `OpCodeResult` and `commit`. An exception ends the
  run with nothing committed. Which `OpCodeResult` a cycle saves is a parameter (`op`): the
  code that builds it is not in the sources either, and the monitor only keeps its syscall.

  Proved:
  - `step_monitor_image`: a step leaves the monitor's image as it was, so every read the step
    makes sees the memory as it was before the step.
  - `run_mapped`: over every run, an access finds a region after the run exactly when it did
    before: no store, bootstrap, register store or commit adds or removes memory, so an
    address that is unmapped when the run starts (where a read panics) stays unmapped.
  - `run_error_not_accessFault`: a run never stops on `FetchError`, `LoadAccessFault` or
    `StoreAccessFault`, since the monitor never refuses an access.
-/

namespace ZkvmRv64

namespace MemoryMonitor

theorem writeMem_adds_any {m m' : MemoryMonitor} {addr data : BitVec 64} {size : MemAccessSize}
    {ok : Bool} (h : m.writeMem addr size data = .ret (ok, m')) : ∃ rs, Adds m m' rs := by
  cases size
  · cases h
    exact ⟨_, adds_storeU8 m _ _⟩
  all_goals
  · obtain ⟨_, h1, h⟩ := Outcome.bind_eq_ret.mp h
    cases h
    exact ⟨_, adds_storeLe h1⟩

/-- What adding pending records keeps, the monitor's calls keep: loads only read, stores only
    add records. -/
theorem memory_preserves_of_adds {I : MemoryMonitor → Prop}
    (hI : ∀ {m m' : MemoryMonitor} {rs : List MemStore}, Adds m m' rs → I m → I m') :
    MemoryMonitor.memory.Preserves I where
  read _ _ _ _ _ h hr := by
    obtain ⟨_, -, hr⟩ := Outcome.bind_eq_ret.mp hr
    cases hr
    exact h
  write _ _ _ _ _ _ h hw := by
    obtain ⟨_, ha⟩ := writeMem_adds_any hw
    exact hI ha h

/-- The monitor's calls never change its image. -/
theorem memory_preserves_image (img : MemoryImage) :
    MemoryMonitor.memory.Preserves fun m => m.image = img :=
  memory_preserves_of_adds fun ha h => ha.image.trans h

theorem loadRegister_image {P : Platform} {m m' : MemoryMonitor} {idx : Nat} {v : BitVec 64}
    (h : m.loadRegister P idx = .ret (v, m')) : m'.image = m.image := by
  unfold loadRegister at h
  split at h
  · obtain ⟨m1, h1, h⟩ := Outcome.bind_eq_ret.mp h
    cases h
    exact (adds_storeLe h1).image
  · obtain ⟨_, -, h⟩ := Outcome.bind_eq_ret.mp h
    cases h
    rfl

/-- Loading registers leaves the image as it was: the bootstrap of `x2` only adds a pending
    record. -/
theorem loadRegisters_image (P : Platform) :
    ∀ {m m' : MemoryMonitor} {idxs : List Nat} {vs : List (BitVec 64)},
      m.loadRegisters P idxs = .ret (vs, m') → m'.image = m.image
  | _, _, [], _, h => by
    cases h
    rfl
  | _, _, _ :: _, _, h => by
    obtain ⟨⟨v, m1⟩, h1, h⟩ := Outcome.bind_eq_ret.mp h
    obtain ⟨⟨vs, m2⟩, h2, h⟩ := Outcome.bind_eq_ret.mp h
    cases h
    exact (loadRegisters_image P h2).trans (loadRegister_image h1)

end MemoryMonitor

/-- Within a step on the monitor, the image stays as the step found it. -/
theorem step_monitor_image (decode : BitVec 32 → Option Insn)
    (e : InstructionExecutor MemoryMonitor) {r : Except InstructionException Unit}
    {e' : InstructionExecutor MemoryMonitor} (h : e.step decode MemoryMonitor.memory = .ret (r, e')) :
    e'.mem.image = e.mem.image :=
  InstructionExecutor.step_preserves decode (MemoryMonitor.memory_preserves_image _) e rfl r e' h

/-- `sb x0, 4(x0)` from `pc = 0`: the store stays pending. -/
theorem step_monitor_image_sb :
    ∃ r e', (⟨byteMonitor, HartState.new⟩ : InstructionExecutor MemoryMonitor).step
        (fun _ => some (.sb ⟨0, 0, 4⟩)) MemoryMonitor.memory = .ret (r, e') ∧
      e'.mem.image = byteMonitor.image :=
  ⟨_, _, rfl, step_monitor_image (fun _ => some (.sb ⟨0, 0, 4⟩)) ⟨byteMonitor, HartState.new⟩ rfl⟩

/-! ## The cycle -/

/-- The hart with the values `vs` put in the registers `idxs`, one by one. -/
def HartState.setRegisters (hs : HartState) : List (Fin 32) → List (BitVec 64) → HartState
  | i :: idxs, v :: vs =>
    HartState.setRegisters { hs with registers := fun j => if j = i then v else hs.registers j } idxs vs
  | _, _ => hs

/-- The registers the instruction in the fetched word reads, `x0` apart; none when the fetch
    found nothing or the word does not decode (the step then raises). -/
def sourcesAt (decode : BitVec 32 → Option Insn) (w : Option (BitVec 64)) : List (Fin 32) :=
  match w.bind fun w => decode ((w &&& 0xffffffff).setWidth 32) with
  | some i => i.sources.filter (· ≠ 0)
  | none => []

/-- The register the step wrote, if any, stored to its slot through `store_register`. -/
def writeBack (P : Platform) (e : InstructionExecutor MemoryMonitor) : Outcome MemoryMonitor :=
  match e.hartState.lastRegisterWrite with
  | some rd => e.mem.storeRegister P rd.val (e.hartState.registers rd)
  | none => .ret e.mem

/-- Modelled from the spec: one instruction on the monitor, its register reads and write made
    through the monitor, committed when it returns `Ok`. -/
def cycle (P : Platform) (decode : BitVec 32 → Option Insn) (opResult : OpCodeResult)
    (e : InstructionExecutor MemoryMonitor) :
    Outcome (Except InstructionException Unit × InstructionExecutor MemoryMonitor) := do
  let w ← e.mem.readMem e.hartState.pc .Word
  let srcs := sourcesAt decode w
  let (vs, m) ← e.mem.loadRegisters P (srcs.map Fin.val)
  let (r, e) ← (⟨m, e.hartState.setRegisters srcs vs⟩ : InstructionExecutor MemoryMonitor).step
    decode MemoryMonitor.memory
  match r with
  | .error ex => return (.error ex, e)
  | .ok () =>
    let m ← writeBack P e
    let m ← (m.saveOp opResult).commit
    return (.ok (), e.setMem m)

/-- Modelled from the spec: at most `n` cycles, until an exception. -/
def run (P : Platform) (decode : BitVec 32 → Option Insn)
    (op : InstructionExecutor MemoryMonitor → OpCodeResult) :
    Nat → InstructionExecutor MemoryMonitor →
      Outcome (Except InstructionException Unit × InstructionExecutor MemoryMonitor)
  | 0, e => .ret (.ok (), e)
  | n + 1, e => do
    let (r, e) ← cycle P decode (op e) e
    match r with
    | .error ex => return (.error ex, e)
    | .ok () => run P decode op n e

/-- `m'` maps exactly the accesses `m` maps. -/
def SameMapped (m m' : MemoryMonitor) : Prop :=
  ∀ a size, (m'.image.memorySpace.readMem a size).isSome = (m.image.memorySpace.readMem a size).isSome

theorem SameMapped.refl (m : MemoryMonitor) : SameMapped m m := fun _ _ => rfl

theorem SameMapped.trans {m1 m2 m3 : MemoryMonitor} (h1 : SameMapped m1 m2) (h2 : SameMapped m2 m3) :
    SameMapped m1 m3 :=
  fun a size => (h2 a size).trans (h1 a size)

theorem SameMapped.of_image {m m' : MemoryMonitor} (h : m'.image = m.image) : SameMapped m m' :=
  fun _ _ => by rw [h]

theorem commit_sameMapped {m m' : MemoryMonitor} (opResult : OpCodeResult)
    (h : (m.saveOp opResult).commit = .ret m') : SameMapped m m' := by
  rw [commit_saveOp] at h
  cases h
  exact fun a size => isSome_read_applyStores a size _ _

section Run

variable {P : Platform} {decode : BitVec 32 → Option Insn} {opResult : OpCodeResult}
  {e e' : InstructionExecutor MemoryMonitor}

theorem cycle_sameMapped {r : Except InstructionException Unit}
    (h : cycle P decode opResult e = .ret (r, e')) : SameMapped e.mem e'.mem := by
  obtain ⟨w, -, h⟩ := Outcome.bind_eq_ret.mp h
  obtain ⟨⟨vs, m⟩, hl, h⟩ := Outcome.bind_eq_ret.mp h
  obtain ⟨⟨r1, e1⟩, hs, h⟩ := Outcome.bind_eq_ret.mp h
  have himg : SameMapped e.mem e1.mem :=
    SameMapped.of_image ((step_monitor_image decode _ hs).trans (MemoryMonitor.loadRegisters_image P hl))
  cases r1 with
  | error ex =>
    cases h
    exact himg
  | ok _ =>
    obtain ⟨m1, hst, h⟩ := Outcome.bind_eq_ret.mp h
    obtain ⟨m2, hc, h⟩ := Outcome.bind_eq_ret.mp h
    cases h
    have h1 : m1.image = e1.mem.image := by
      unfold writeBack at hst
      split at hst
      · exact (StoreOp.adds_run P (.storeRegister _ _) hst).image
      · cases hst
        rfl
    exact himg.trans ((SameMapped.of_image h1).trans (commit_sameMapped opResult hc))

/-- Over every run, an access finds a region at the end exactly when it did at the start. -/
theorem run_mapped (P : Platform) (decode : BitVec 32 → Option Insn)
    (op : InstructionExecutor MemoryMonitor → OpCodeResult) :
    ∀ (n : Nat) (e : InstructionExecutor MemoryMonitor) {r : Except InstructionException Unit}
      {e' : InstructionExecutor MemoryMonitor}, run P decode op n e = .ret (r, e') →
      SameMapped e.mem e'.mem
  | 0, e, _, _, h => by
    cases h
    exact SameMapped.refl _
  | n + 1, e, _, _, h => by
    obtain ⟨⟨r1, e1⟩, hc, h⟩ := Outcome.bind_eq_ret.mp h
    have h1 := cycle_sameMapped hc
    cases r1 with
    | error ex =>
      cases h
      exact h1
    | ok _ => exact h1.trans (run_mapped P decode op n e1 h)

/-- `sb x0, 4(x0)` twice, each store committed; it reads only `x0`, so no register is loaded. -/
theorem run_mapped_sb :
    ∃ e', run Platform.small (fun _ => some (.sb ⟨0, 0, 4⟩)) (fun _ => ⟨none⟩) 2
        ⟨byteMonitor, HartState.new⟩ = .ret (.ok (), e') ∧ SameMapped byteMonitor e'.mem :=
  ⟨_, rfl, run_mapped Platform.small (fun _ => some (.sb ⟨0, 0, 4⟩)) (fun _ => ⟨none⟩) 2
    ⟨byteMonitor, HartState.new⟩ rfl⟩

theorem cycle_ok_pending (h : cycle P decode opResult e = .ret (.ok (), e')) :
    e'.mem.pendingWrites.elems = [] := by
  obtain ⟨w, -, h⟩ := Outcome.bind_eq_ret.mp h
  obtain ⟨⟨vs, m⟩, -, h⟩ := Outcome.bind_eq_ret.mp h
  obtain ⟨⟨r1, e1⟩, -, h⟩ := Outcome.bind_eq_ret.mp h
  cases r1 with
  | error ex => cases h
  | ok _ =>
    obtain ⟨m1, -, h⟩ := Outcome.bind_eq_ret.mp h
    obtain ⟨m2, hc, h⟩ := Outcome.bind_eq_ret.mp h
    cases h
    rw [commit_saveOp] at hc
    cases hc
    rfl

/-- A cycle's exception is a step's: the register loads and the commit never raise one. -/
theorem cycle_error {ex : InstructionException} (h : cycle P decode opResult e = .ret (.error ex, e')) :
    ∃ e0 : InstructionExecutor MemoryMonitor, e0.step decode MemoryMonitor.memory = .ret (.error ex, e') := by
  obtain ⟨w, -, h⟩ := Outcome.bind_eq_ret.mp h
  obtain ⟨⟨vs, m⟩, -, h⟩ := Outcome.bind_eq_ret.mp h
  obtain ⟨⟨r1, e1⟩, hs, h⟩ := Outcome.bind_eq_ret.mp h
  cases r1 with
  | error ex =>
    cases h
    exact ⟨_, hs⟩
  | ok _ =>
    obtain ⟨m1, -, h⟩ := Outcome.bind_eq_ret.mp h
    obtain ⟨m2, -, h⟩ := Outcome.bind_eq_ret.mp h
    cases h

/-- Over every run on the monitor, an exception that ends the run is never an access fault:
    a run stops on `IllegalInstruction` or `AlignmentFault` only. -/
theorem run_error_not_accessFault (P : Platform) (decode : BitVec 32 → Option Insn)
    (op : InstructionExecutor MemoryMonitor → OpCodeResult) :
    ∀ (n : Nat) (e : InstructionExecutor MemoryMonitor) {ex : InstructionException}
      {e' : InstructionExecutor MemoryMonitor}, run P decode op n e = .ret (.error ex, e') →
      ex.isAccessFault = false
  | 0, _, _, _, h => by cases h
  | n + 1, e, _, _, h => by
    obtain ⟨⟨r1, e1⟩, hc, h⟩ := Outcome.bind_eq_ret.mp h
    cases r1 with
    | error ex =>
      cases h
      obtain ⟨e0, hs⟩ := cycle_error hc
      exact step_error_of_total decode MemoryMonitor.memory_total e0 hs
    | ok _ => exact run_error_not_accessFault P decode op n e1 h

/-- A word that does not decode ends the run at once. -/
theorem run_error_not_accessFault_illegal :
    ∃ ex e', run Platform.small (fun _ => none) (fun _ => ⟨none⟩) 1 ⟨byteMonitor, HartState.new⟩ =
        .ret (.error ex, e') ∧ ex.isAccessFault = false :=
  ⟨_, _, rfl, run_error_not_accessFault Platform.small (fun _ => none) (fun _ => ⟨none⟩) 1
    ⟨byteMonitor, HartState.new⟩ rfl⟩

end Run

end ZkvmRv64
