import ZkvmRv64.Exec.Direct
import ZkvmRv64.Rrs.Frame

/-
  ZkvmRv64.Exec.Run — a run of the zkvm against a run of rrs, the register file included.

  The zkvm keeps the registers in its memory, each at its slot in the register file's shadow
  (`get_register_addr`: the 256 bytes from `SYSTEM.start`); rrs keeps them in the hart. A
  cycle loads the registers the instruction reads from their slots, runs the step, and
  stores the register the step wrote back to its slot (`Exec.Cycle`). The two agree while
  the program keeps to the register file's contract:
  - no load or store reaches into the shadow (`Memory.guarded`);
  - no step writes 0 to `x2`, which `store_register` turns into `STACK_INITIAL_ADDRESS`
    (`HartState.ResetsStack`, which `stepHeld` turns into a panic);
  - the run starts past the bootstrap of `x2` (`initial` set).
  rrs held to the contract, on the strict space (`stepsHeld` on `Memory.guarded`), returns
  only when the program kept to it, and then its run is the run rrs makes on the space.

  `Holds P s hs m` is what the monitor keeps for rrs on the space `s` with the hart `hs`: the
  bytes of `s` outside the shadow, the registers of `hs` in their slots, nothing pending and
  the bootstrap done. A cycle's loads then hand the step the hart's own registers, its step
  makes the accesses rrs makes, and its write-back and commit put the written register in its
  slot and leave every other slot as it was, since a step changes no register but the one
  `last_register_write` records (`step_ok_lastRegisterWrite`).

  Proved:
  - `cycle_of_space_step`: a held step of rrs on the space is a zkvm cycle from a monitor that
    holds the space and the hart, and the monitor holds them again after it.
  - `run_space_on_monitor`: every run of `n` steps of rrs on a well-formed space within the
    contract is the run rrs makes on the space, and `n` zkvm cycles from a monitor that holds
    the space and the hart return the same result and hart; the monitor, with what an
    exception left pending applied, holds the space rrs ends with and its hart's registers.
-/

namespace ZkvmRv64

/-! ## The register file's shadow -/

/-- `b` is a byte of the register file's shadow: the 32 slots of 8 bytes from
    `SYSTEM.start`. -/
def Platform.InShadow (P : Platform) (b : BitVec 64) : Prop :=
  P.SYSTEM_start ≤ b.toNat ∧ b.toNat < P.SYSTEM_start + 256

/-- The access of `size` at `addr` reaches a byte of the shadow. -/
def Platform.Reaches (P : Platform) (addr : BitVec 64) (size : MemAccessSize) : Prop :=
  P.SYSTEM_start < addr.toNat + size.bytes ∧ addr.toNat < P.SYSTEM_start + 256

instance (P : Platform) (b : BitVec 64) : Decidable (P.InShadow b) :=
  inferInstanceAs (Decidable (_ ∧ _))

instance (P : Platform) (addr : BitVec 64) (size : MemAccessSize) : Decidable (P.Reaches addr size) :=
  inferInstanceAs (Decidable (_ ∧ _))

theorem Platform.not_inShadow_of_covers {P : Platform} {addr b : BitVec 64} {size : MemAccessSize}
    (h : ¬P.Reaches addr size) (hb : size.Covers addr b) : ¬P.InShadow b := by
  simp only [Platform.Reaches, Platform.InShadow, MemAccessSize.Covers] at *
  omega

section Slots

variable {P : Platform} (hP : P.SYSTEM_start + 256 ≤ 2 ^ 64)
include hP

theorem toNat_slot_add (i : Fin 32) {k : Nat} (hk : k < 8) :
    (getRegisterAddr P i + BitVec.ofNat 64 k).toNat = P.SYSTEM_start + 8 * i.val + k := by
  have := i.isLt
  simp only [getRegisterAddr, DOUBLE_WORD_SIZE, BitVec.toNat_add, BitVec.toNat_ofNat]
  omega

theorem inShadow_slot (i : Fin 32) {k : Nat} (hk : k < 8) :
    P.InShadow (getRegisterAddr P i + BitVec.ofNat 64 k) := by
  have := i.isLt
  simp only [Platform.InShadow, toNat_slot_add hP i hk]
  omega

/-- Distinct registers have disjoint slots. -/
theorem slot_add_ne {i j : Fin 32} (hij : i ≠ j) {k k' : Nat} (hk : k < 8) (hk' : k' < 8) :
    getRegisterAddr P j + BitVec.ofNat 64 k' ≠ getRegisterAddr P i + BitVec.ofNat 64 k := fun h => by
  have := congrArg BitVec.toNat h
  rw [toNat_slot_add hP j hk', toNat_slot_add hP i hk] at this
  exact hij (Fin.ext (by omega))

end Slots

theorem slot_aligned {P : Platform} (hP8 : P.SYSTEM_start % 8 = 0) (i : Fin 32) :
    (getRegisterAddr P i).toNat % 8 = 0 := by
  simp only [getRegisterAddr, DOUBLE_WORD_SIZE, BitVec.toNat_ofNat]
  omega

/-- Slot `i` of `t` holds `v`: its 8 bytes are the byte lanes of `v`, low byte first. -/
def SlotHolds (P : Platform) (t : MemorySpace) (i : Fin 32) (v : BitVec 64) : Prop :=
  ∀ k < 8, t.readMem (getRegisterAddr P i + BitVec.ofNat 64 k) .Byte = some (laneGet v (8 * k) 8)

theorem toLeBytes_getElem_setWidth (v : BitVec 64) {k : Nat} (hk : k < (toLeBytes 8 v).length) :
    (toLeBytes 8 v)[k].setWidth 64 = laneGet v (8 * k) 8 :=
  laneGet_of_fromLeBytes (by simp) (by rw [length_toLeBytes]; exact fromLeBytes_toLeBytes 8 v) k hk

/-- A slot that holds `v` loads as `v`. -/
theorem loadU64_of_slotHolds {P : Platform} (hP8 : P.SYSTEM_start % 8 = 0)
    {m : MemoryMonitor} {i : Fin 32} {v : BitVec 64}
    (h : SlotHolds P m.image.memorySpace i v) : m.loadU64 (getRegisterAddr P i) = .ret v := by
  have hle : m.loadLe (toLeBytes 8 v).length (getRegisterAddr P i) =
      .ret (fromLeBytes (toLeBytes 8 v)) :=
    loadLe_of_bytes (by rw [length_toLeBytes]; exact slot_aligned hP8 i) fun k hk => by
      have hk8 : k < 8 := by simpa using hk
      rw [loadU8_of_read (h k hk8), ← toLeBytes_getElem_setWidth v hk,
        BitVec.setWidth_setWidth_of_le _ (by decide), BitVec.setWidth_eq]
  rw [length_toLeBytes, fromLeBytes_toLeBytes] at hle
  show m.loadLe 8 _ = _
  rw [hle]
  congr 1
  exact BitVec.eq_of_toNat_eq (by simp [Nat.mod_eq_of_lt v.isLt])

/-! ## The contract -/

/-- `M` held to the register file's contract: an access that reaches the shadow panics. -/
def Memory.guarded {σ : Type} (P : Platform) (M : Memory σ) : Memory σ where
  readMem s addr size :=
    if P.Reaches addr size then .panic "access to the register file" else M.readMem s addr size
  writeMem s addr size store_data :=
    if P.Reaches addr size then .panic "access to the register file"
    else M.writeMem s addr size store_data

section Guarded

variable {σ : Type} {P : Platform} {M : Memory σ} {s s' : σ} {addr data : BitVec 64}
  {size : MemAccessSize}

theorem Memory.guarded_readMem {r : Option (BitVec 64)}
    (h : (M.guarded P).readMem s addr size = .ret (r, s')) :
    ¬P.Reaches addr size ∧ M.readMem s addr size = .ret (r, s') := by
  have hg : (M.guarded P).readMem s addr size =
      if P.Reaches addr size then .panic "access to the register file" else M.readMem s addr size := rfl
  rw [hg] at h
  split at h
  · cases h
  · next hr => exact ⟨hr, h⟩

theorem Memory.guarded_writeMem {ok : Bool}
    (h : (M.guarded P).writeMem s addr size data = .ret (ok, s')) :
    ¬P.Reaches addr size ∧ M.writeMem s addr size data = .ret (ok, s') := by
  have hg : (M.guarded P).writeMem s addr size data =
      if P.Reaches addr size then .panic "access to the register file"
      else M.writeMem s addr size data := rfl
  rw [hg] at h
  split at h
  · cases h
  · next hr => exact ⟨hr, h⟩

/-- Each answer of `M.guarded P` is `M`'s. -/
theorem Memory.guarded_simulates (P : Platform) (M : Memory σ) : (M.guarded P).Simulates M Eq Eq where
  read _ _ _ _ _ _ h hr := ⟨_, h ▸ (Memory.guarded_readMem hr).2, rfl⟩
  write _ _ _ _ _ _ _ h hw := ⟨_, h ▸ (Memory.guarded_writeMem hw).2, rfl⟩
  done h := h

end Guarded

/-- The step wrote 0 to `x2`, where `store_register` stores `STACK_INITIAL_ADDRESS`. -/
def HartState.ResetsStack (hs : HartState) : Prop :=
  hs.lastRegisterWrite = some 2 ∧ hs.registers 2 = 0

instance (hs : HartState) : Decidable hs.ResetsStack := inferInstanceAs (Decidable (_ ∧ _))

namespace InstructionExecutor

variable {σ : Type}

/-- A step of rrs held to the register file's contract: one that returns `Ok` having written
    0 to `x2` panics. -/
def stepHeld (decode : BitVec 32 → Option Insn) (M : Memory σ) (e : InstructionExecutor σ) :
    Outcome (Except InstructionException Unit × InstructionExecutor σ) := do
  let (r, e) ← e.step decode M
  match r with
  | .error ex => return (.error ex, e)
  | .ok () => if e.hartState.ResetsStack then .panic "x2 reset" else return (.ok (), e)

/-- `n` held steps, until an exception. -/
def stepsHeld (decode : BitVec 32 → Option Insn) (M : Memory σ) :
    Nat → InstructionExecutor σ → Outcome (Except InstructionException Unit × InstructionExecutor σ)
  | 0, e => .ret (.ok (), e)
  | n + 1, e => do
    let (r, e) ← e.stepHeld decode M
    match r with
    | .error ex => return (.error ex, e)
    | .ok () => stepsHeld decode M n e

/-- A held step that returns is the step, and on `Ok` it wrote no 0 to `x2`. -/
theorem step_of_stepHeld {decode : BitVec 32 → Option Insn} {M : Memory σ}
    {e e' : InstructionExecutor σ} {r : Except InstructionException Unit}
    (h : e.stepHeld decode M = .ret (r, e')) :
    e.step decode M = .ret (r, e') ∧ (r = .ok () → ¬e'.hartState.ResetsStack) := by
  obtain ⟨⟨r1, e1⟩, hs, h⟩ := Outcome.bind_eq_ret.mp h
  cases r1 with
  | error ex =>
    cases h
    exact ⟨hs, nofun⟩
  | ok _ =>
    dsimp only at h
    split at h
    · cases h
    · next hc =>
      cases h
      exact ⟨hs, fun _ => hc⟩

theorem steps_of_stepsHeld (decode : BitVec 32 → Option Insn) (M : Memory σ) :
    ∀ (n : Nat) (e : InstructionExecutor σ) {r : Except InstructionException Unit}
      {e' : InstructionExecutor σ}, e.stepsHeld decode M n = .ret (r, e') → e.steps decode M n = .ret (r, e')
  | 0, _, _, _, h => h
  | n + 1, e, _, _, h => by
    obtain ⟨⟨r1, e1⟩, hs, h⟩ := Outcome.bind_eq_ret.mp h
    rw [steps, (step_of_stepHeld hs).1, Outcome.ret_bind]
    cases r1 with
    | error ex => exact h
    | ok _ => exact steps_of_stepsHeld decode M n e1 h

end InstructionExecutor

/-! ## The step outside the shadow -/

open MemoryMonitor

/-- Outside the shadow, the monitor holds the bytes of `s`, a well-formed space, with nothing
    pending. -/
def MirrorsOff (P : Platform) (s : MemorySpace) (m : MemoryMonitor) : Prop :=
  s.WellFormed ∧ (∀ b, ¬P.InShadow b → s.readMem b .Byte = m.image.memorySpace.readMem b .Byte) ∧
    m.pendingWrites.elems = []

/-- Outside the shadow, the monitor's image with its pending records applied holds the bytes
    of `s`, a well-formed space; no pending record falls in the shadow. -/
def MirrorsOffFlushed (P : Platform) (s : MemorySpace) (m : MemoryMonitor) : Prop :=
  s.WellFormed ∧
    (∀ b, ¬P.InShadow b →
      s.readMem b .Byte = (applyStores m.image.memorySpace m.pendingWrites.elems).readMem b .Byte) ∧
    ∀ b, P.InShadow b → maxAt b m.pendingWrites.elems = none

/-- The strict space held to the contract and the monitor answer alike while the monitor holds
    the space's bytes outside the shadow: an access the space answers stays off the shadow, so
    it sees only bytes the two hold alike. -/
theorem guarded_simulates_monitor (P : Platform) :
    (MemorySpace.memory.strict.guarded P).Simulates MemoryMonitor.memory (MirrorsOff P)
      (MirrorsOffFlushed P) where
  read s m addr size r s' h hr := by
    obtain ⟨hg, hr⟩ := Memory.guarded_readMem hr
    obtain ⟨ha, v, rfl, hm⟩ := Memory.monitored_readMem hr
    rw [MemorySpace.memory_readMem, Outcome.ret.injEq, Prod.mk.injEq] at hm
    obtain ⟨hv, rfl⟩ := hm
    have hread := readMem_of_space h.1 (fun b hb => h.2.1 b (Platform.not_inShadow_of_covers hg hb)) ha hv
    exact ⟨m, by show (m.readMem _ _ >>= _) = _; rw [hread]; rfl, h⟩
  write s m addr size data ok s' h hw := by
    obtain ⟨hg, hw⟩ := Memory.guarded_writeMem hw
    obtain ⟨ha, rfl, hm⟩ := Memory.strict_writeMem hw
    rw [MemorySpace.memory_writeMem, Outcome.ret.injEq, Prod.mk.injEq] at hm
    obtain ⟨-, rfl⟩ := hm
    obtain ⟨m1, xs, hwm, hadds, hlen, hval⟩ := writeMem_adds m size data ha
    refine ⟨m1, hwm, writeRegions_wellFormed _ _ _ _ h.1,
      fun b hb => write_byte_flushed h.1 h.2.2 ha data hadds hlen hval (h.2.1 b hb), fun b hb => ?_⟩
    have hnone : maxAt b (regionBytes addr 0 xs) = none :=
      maxAt_regionBytes_of_ne fun k hk e => Platform.not_inShadow_of_covers hg
        (by rw [e, Nat.zero_add]; exact size.covers_add ha (hlen ▸ hk)) hb
    refine maxAt_eq_none.mpr fun x hx => ?_
    rcases (hadds.mem x).mp hx with hx | hx
    · rw [h.2.2] at hx
      cases hx
    · exact maxAt_eq_none.mp hnone x hx
  done h := ⟨h.1, fun b hb => by rw [h.2.2]; exact h.2.1 b hb, fun b _ => by rw [h.2.2]; rfl⟩

/-- A step on the monitor leaves the bootstrap flag as it was. -/
theorem step_monitor_initial (decode : BitVec 32 → Option Insn) (e : InstructionExecutor MemoryMonitor)
    {r : Except InstructionException Unit} {e' : InstructionExecutor MemoryMonitor}
    (h : e.step decode MemoryMonitor.memory = .ret (r, e')) : e'.mem.initial = e.mem.initial :=
  InstructionExecutor.step_preserves decode (memory_preserves_of_adds fun ha h => ha.initial.trans h)
    e rfl r e' h

/-! ## The monitor holds the space and the hart -/

/-- What the monitor keeps for rrs on the space `s` with the hart `hs`: its image, with the
    pending records applied, holds the bytes of `s`, a well-formed space, outside the shadow;
    the shadow is mapped and slot `i` holds `x_i`, `x0` apart; the bootstrap of `x2` is done. -/
structure HoldsFlushed (P : Platform) (s : MemorySpace) (hs : HartState) (m : MemoryMonitor) :
    Prop where
  wellFormed : s.WellFormed
  bytes : ∀ b, ¬P.InShadow b →
    s.readMem b .Byte = (applyStores m.image.memorySpace m.pendingWrites.elems).readMem b .Byte
  mapped : ∀ b, P.InShadow b → (m.image.memorySpace.readMem b .Byte).isSome
  registers : ∀ i : Fin 32, i ≠ 0 →
    SlotHolds P (applyStores m.image.memorySpace m.pendingWrites.elems) i (hs.registers i)
  initial : m.initial = true

/-- `HoldsFlushed` with nothing pending. -/
def Holds (P : Platform) (s : MemorySpace) (hs : HartState) (m : MemoryMonitor) : Prop :=
  HoldsFlushed P s hs m ∧ m.pendingWrites.elems = []

section Holds

variable {P : Platform} {s : MemorySpace} {hs : HartState} {m : MemoryMonitor}

theorem Holds.mirrorsOff (h : Holds P s hs m) : MirrorsOff P s m :=
  ⟨h.1.wellFormed, fun b hb => by have := h.1.bytes b hb; rwa [h.2] at this, h.2⟩

theorem Holds.slotHolds (h : Holds P s hs m) (i : Fin 32) (hi : i ≠ 0) :
    SlotHolds P m.image.memorySpace i (hs.registers i) := by
  have := h.1.registers i hi
  rwa [h.2] at this

/-- Past the bootstrap, `load_registers` of registers other than `x0` returns the hart's
    registers and leaves the monitor as it was. -/
theorem loadRegisters_of_holds (hP8 : P.SYSTEM_start % 8 = 0) (h : Holds P s hs m)
    (idxs : List (Fin 32)) (hne : ∀ i ∈ idxs, i ≠ 0) :
    m.loadRegisters P (idxs.map Fin.val) = .ret (idxs.map hs.registers, m) := by
  induction idxs with
  | nil => rfl
  | cons i idxs ih =>
    have hi : m.loadRegister P i = .ret (hs.registers i, m) := by
      rw [loadRegister, if_neg fun hc => by simp [h.1.initial] at hc,
        loadU64_of_slotHolds hP8 (h.slotHolds i (hne i (List.mem_cons_self _ _)))]
      rfl
    simp only [List.map_cons, loadRegisters, hi, Outcome.ret_bind,
      ih fun j hj => hne j (List.mem_cons_of_mem _ hj)]
    rfl

end Holds

theorem HartState.setRegisters_map (hs : HartState) :
    ∀ idxs : List (Fin 32), hs.setRegisters idxs (idxs.map hs.registers) = hs
  | [] => rfl
  | i :: idxs => by
    have hreg : (fun j => if j = i then hs.registers i else hs.registers j) = hs.registers :=
      funext fun j => by by_cases hj : j = i <;> simp [hj]
    simp only [List.map_cons, HartState.setRegisters, hreg]
    exact HartState.setRegisters_map hs idxs

theorem sourcesAt_ne_zero (decode : BitVec 32 → Option Insn) (w : Option (BitVec 64)) :
    ∀ i ∈ sourcesAt decode w, i ≠ 0 := by
  unfold sourcesAt
  split
  · intro i hi
    simpa using (List.mem_filter.mp hi).2
  · intro i hi
    cases hi

/-- The write-back of a step that wrote no 0 to `x2` adds the bytes of the register the step
    wrote, at that register's slot, and nothing else. -/
theorem writeBack_adds {P : Platform} (hP8 : P.SYSTEM_start % 8 = 0)
    (hP : P.SYSTEM_start + 256 ≤ 2 ^ 64) (c : InstructionExecutor MemoryMonitor)
    (hc : ¬c.hartState.ResetsStack) :
    ∃ m2 rs, writeBack P c = .ret m2 ∧ Adds c.mem m2 rs ∧ (∀ b, ¬P.InShadow b → maxAt b rs = none) ∧
      ∀ (i : Fin 32) {k : Nat}, k < 8 →
        (c.hartState.lastRegisterWrite = some i →
          ∃ d, maxAt (getRegisterAddr P i + BitVec.ofNat 64 k) rs = some d ∧
            d.setWidth 64 = laneGet (c.hartState.registers i) (8 * k) 8) ∧
        (c.hartState.lastRegisterWrite ≠ some i →
          maxAt (getRegisterAddr P i + BitVec.ofNat 64 k) rs = none) := by
  cases hl : c.hartState.lastRegisterWrite with
  | none =>
    exact ⟨c.mem, [], by simp only [writeBack, hl], ⟨rfl, rfl, rfl, by simp⟩, fun _ _ => rfl,
      fun _ _ _ => ⟨nofun, fun _ => rfl⟩⟩
  | some rd =>
    have hne : ¬(rd.val = 2 ∧ c.hartState.registers rd = 0) := fun ⟨h2, h0⟩ => by
      obtain rfl : rd = 2 := Fin.ext h2
      exact hc ⟨hl, h0⟩
    have hst : writeBack P c =
        .ret (c.mem.storeRegion (getRegisterAddr P rd) (toLeBytes 8 (c.hartState.registers rd))) := by
      simp only [writeBack, hl, storeRegister, if_neg hne, storeU64]
      exact storeLe_of_aligned _ _ (slot_aligned hP8 rd)
    refine ⟨_, _, hst, adds_storeBytes _ _ c.mem 0, fun b hb => maxAt_regionBytes_of_ne fun k hk e =>
      hb (by rw [e, Nat.zero_add]; exact inShadow_slot hP rd (by simpa using hk)),
      fun i k hk => ⟨fun hi => ?_, fun hi => ?_⟩⟩
    · obtain rfl : rd = i := Option.some.inj hi
      have hk' : k < (toLeBytes 8 (c.hartState.registers rd)).length := by simpa using hk
      have hat := @maxAt_regionBytes_at (getRegisterAddr P rd) 0 (toLeBytes 8 (c.hartState.registers rd))
        (by simp) k hk'
      rw [Nat.zero_add] at hat
      exact ⟨_, hat, toLeBytes_getElem_setWidth _ hk'⟩
    · exact maxAt_regionBytes_of_ne fun k' hk' e => slot_add_ne hP (fun h => hi (congrArg some h)) (by simpa using hk')
        hk (by rw [Nat.zero_add] at e; exact e)

/-! ## A held step of rrs is a zkvm cycle -/

section Refinement

variable {P : Platform} (hP8 : P.SYSTEM_start % 8 = 0) (hP : P.SYSTEM_start + 256 ≤ 2 ^ 64)
  (decode : BitVec 32 → Option Insn)
include hP8 hP

/-- A held step of rrs on the space, from a monitor that holds the space and the hart, is a
    zkvm cycle: the same result and hart, and the monitor, with what an exception left pending
    applied, holds the space the step ends with and its hart's registers. -/
theorem cycle_of_space_step (opResult : OpCodeResult) (e : InstructionExecutor MemorySpace)
    (m : MemoryMonitor) (h : Holds P e.mem e.hartState m) {r : Except InstructionException Unit}
    {e' : InstructionExecutor MemorySpace}
    (hs : e.stepHeld decode (MemorySpace.memory.strict.guarded P) = .ret (r, e')) :
    ∃ m', cycle P decode opResult ⟨m, e.hartState⟩ = .ret (r, ⟨m', e'.hartState⟩) ∧
      HoldsFlushed P e'.mem e'.hartState m' := by
  obtain ⟨hstep, hheld⟩ := InstructionExecutor.step_of_stepHeld hs
  obtain ⟨m1, hm1, hF⟩ := InstructionExecutor.step_matches decode (guarded_simulates_monitor P) e m
    h.mirrorsOff _ _ hstep
  have himg : m1.image = m.image := step_monitor_image decode ⟨m, e.hartState⟩ hm1
  have hinit : m1.initial = true :=
    (step_monitor_initial decode ⟨m, e.hartState⟩ hm1).trans h.1.initial
  obtain ⟨w, hfetch⟩ : ∃ w, m.readMem e.hartState.pc .Word = .ret w := by
    obtain ⟨⟨w, _⟩, hf, -⟩ := Outcome.bind_eq_ret.mp hm1
    obtain ⟨w', hw, -⟩ := Outcome.bind_eq_ret.mp hf
    exact ⟨w', hw⟩
  simp only [cycle, hfetch, Outcome.ret_bind]
  rw [loadRegisters_of_holds hP8 h _ (sourcesAt_ne_zero decode w)]
  simp only [Outcome.ret_bind, HartState.setRegisters_map]
  rw [hm1, Outcome.ret_bind]
  cases r with
  | error ex =>
    have hreg := InstructionExecutor.step_error_registers decode _ hstep
    refine ⟨m1, rfl, hF.1, hF.2.1, fun b hb => himg ▸ h.1.mapped b hb, fun i hi k hk => ?_, hinit⟩
    rw [read_applied_of_none (hF.2.2 _ (inShadow_slot hP i hk)), himg, hreg]
    exact h.slotHolds i hi k hk
  | ok u =>
    cases u
    obtain ⟨m2, rs, hwb, hadds, hout, hslot⟩ := writeBack_adds hP8 hP ⟨m1, e'.hartState⟩ (hheld rfl)
    simp only [hwb, Outcome.ret_bind, commit_saveOp]
    refine ⟨_, rfl, hF.1, fun b hb => ?_, fun b hb => ?_, fun i hi k hk => ?_, hadds.initial.trans hinit⟩
    · show _ = (applyStores m2.image.memorySpace m2.pendingWrites.elems).readMem b .Byte
      rw [hF.2.1 b hb, read_adds hadds, maxAt_append_of_none (hout b hb), read_applied]
    · show ((applyStores m2.image.memorySpace m2.pendingWrites.elems).readMem b .Byte).isSome
      rw [isSome_read_applyStores, hadds.image, himg]
      exact h.1.mapped b hb
    · show (applyStores m2.image.memorySpace m2.pendingWrites.elems).readMem _ .Byte = _
      rw [read_adds hadds, maxAt_none_append (hF.2.2 _ (inShadow_slot hP i hk))]
      by_cases hl : e'.hartState.lastRegisterWrite = some i
      · obtain ⟨d, hd, hdv⟩ := (hslot i hk).1 hl
        obtain ⟨x, hx⟩ := Option.isSome_iff_exists.mp (h.1.mapped _ (inShadow_slot hP i hk))
        simp only [hd, himg, hx, Option.map_some', hdv]
      · have hreg : e'.hartState.registers i = e.hartState.registers i :=
          Classical.byContradiction fun hne =>
            hl (InstructionExecutor.step_ok_lastRegisterWrite decode _ hstep i hne)
        simp only [(hslot i hk).2 hl, himg, hreg]
        exact h.slotHolds i hi k hk

/-- `n` held steps of rrs on the space are `n` zkvm cycles from a monitor that holds the space
    and the hart. -/
theorem run_of_space_steps (op : InstructionExecutor MemoryMonitor → OpCodeResult) :
    ∀ (n : Nat) (e : InstructionExecutor MemorySpace) (m : MemoryMonitor),
      Holds P e.mem e.hartState m → ∀ {r : Except InstructionException Unit}
      {e' : InstructionExecutor MemorySpace},
      e.stepsHeld decode (MemorySpace.memory.strict.guarded P) n = .ret (r, e') →
      ∃ m', run P decode op n ⟨m, e.hartState⟩ = .ret (r, ⟨m', e'.hartState⟩) ∧
        HoldsFlushed P e'.mem e'.hartState m'
  | 0, _, m, h, _, _, hs => by
    cases hs
    exact ⟨m, rfl, h.1⟩
  | n + 1, e, m, h, _, _, hs => by
    obtain ⟨⟨r1, e1⟩, hs1, hs⟩ := Outcome.bind_eq_ret.mp hs
    obtain ⟨m1, hc, hH⟩ := cycle_of_space_step hP8 hP decode (op ⟨m, e.hartState⟩) e m h hs1
    rw [run, hc, Outcome.ret_bind]
    cases r1 with
    | error ex =>
      cases hs
      exact ⟨m1, rfl, hH⟩
    | ok _ => exact run_of_space_steps op n e1 m1 ⟨hH, cycle_ok_pending hc⟩ hs

/-- Every run of `n` steps of rrs on a well-formed space within the register file's contract
    (the held run on the strict space with the shadow guarded returns) is the run rrs makes on
    the space; and `n` zkvm cycles from a monitor that holds the space and the hart, past the
    bootstrap of `x2`, return the same result and hart, the monitor, with what an exception
    left pending applied, holding the space rrs ends with and its hart's registers. -/
theorem run_space_on_monitor (op : InstructionExecutor MemoryMonitor → OpCodeResult) (n : Nat)
    (e : InstructionExecutor MemorySpace) (m : MemoryMonitor) (h : Holds P e.mem e.hartState m)
    {r : Except InstructionException Unit} {e' : InstructionExecutor MemorySpace}
    (hrun : e.stepsHeld decode (MemorySpace.memory.strict.guarded P) n = .ret (r, e')) :
    e.steps decode MemorySpace.memory n = .ret (r, e') ∧
      ∃ m', run P decode op n ⟨m, e.hartState⟩ = .ret (r, ⟨m', e'.hartState⟩) ∧
        HoldsFlushed P e'.mem e'.hartState m' :=
  ⟨InstructionExecutor.steps_of_simulates decode (Memory.strict_simulates _) n e
      (InstructionExecutor.steps_of_simulates decode (Memory.guarded_simulates P _) n e
        (InstructionExecutor.steps_of_stepsHeld decode _ n e hrun)),
    run_of_space_steps hP8 hP decode op n e m h hrun⟩

end Refinement

/-! ## A run through the register file -/

/-- 4 KiB at 0, zeros but the word at 4, which is 1. -/
def doubleRegion : MemoryRegion := ⟨0, 0x1000, ⟨fun i => if i = 0 then 0x100000000 else 0, 512⟩⟩

def doubleSpace : MemorySpace := ⟨[doubleRegion]⟩

/-- `addi x5, x0, 7` for the word 0, `add x6, x5, x5` for any other. -/
def doubleDecode (w : BitVec 32) : Option Insn :=
  if w = 0 then some (.addi ⟨5, 0, 7⟩) else some (.add ⟨6, 5, 5⟩)

/-- A monitor on `doubleSpace`, past the bootstrap of `x2`. -/
def doubleMonitor : MemoryMonitor := { MemoryMonitor.new ⟨doubleSpace⟩ with initial := true }

/-- The shadow of `doubleSpace` is zeros: its slots hold `x_i = 0`. -/
theorem doubleSpace_readMem_shadow {b : BitVec 64} (hb : Platform.small.InShadow b) :
    doubleSpace.readMem b .Byte = some 0 := by
  have hb' : 0x800 ≤ b.toNat ∧ b.toNat < 0x900 := hb
  have hc : doubleRegion.contains b = true :=
    (MemoryRegion.contains_iff _ _).mpr (show 0 ≤ b.toNat ∧ b.toNat < 0 + 4096 by omega)
  have hsub : (b - 0 : BitVec 64) = b := by simp
  show (if doubleRegion.contains b then doubleRegion.memory.readMem (b - 0) .Byte else none) = _
  rw [if_pos hc, hsub, VecMemory.readMem,
    if_pos (show b.toNat / 8 < doubleRegion.memory.len from show b.toNat / 8 < 512 by omega)]
  show some (laneGet (if b.toNat / 8 = 0 then 0x100000000 else 0) _ _) = _
  rw [if_neg (by omega)]
  simp [laneGet]

theorem doubleMonitor_holds : Holds Platform.small doubleSpace HartState.new doubleMonitor := by
  refine ⟨⟨by decide, fun _ _ => rfl, fun b hb => ?_, fun i _ k hk => ?_, rfl⟩, rfl⟩
  · show (doubleSpace.readMem b .Byte).isSome
    rw [doubleSpace_readMem_shadow hb]
    rfl
  · show doubleSpace.readMem _ .Byte = some (laneGet 0 (8 * k) 8)
    rw [doubleSpace_readMem_shadow (inShadow_slot (by decide) i hk)]
    simp [laneGet]

/-- `addi x5, x0, 7` then `add x6, x5, x5`, by rrs on `doubleSpace` and by the zkvm from
    `doubleMonitor`: the second instruction reads `x5` from its slot, and both runs end with
    `x6 = 14`. -/
theorem run_space_on_monitor_double :
    Holds Platform.small doubleSpace HartState.new doubleMonitor ∧
      ∃ r e', (⟨doubleSpace, HartState.new⟩ : InstructionExecutor MemorySpace).stepsHeld doubleDecode
          (MemorySpace.memory.strict.guarded Platform.small) 2 = .ret (r, e') ∧
        e'.hartState.registers 6 = 14 ∧
        (⟨doubleSpace, HartState.new⟩ : InstructionExecutor MemorySpace).steps doubleDecode
            MemorySpace.memory 2 = .ret (r, e') ∧
          ∃ m', run Platform.small doubleDecode (fun _ => ⟨none⟩) 2 ⟨doubleMonitor, HartState.new⟩ =
              .ret (r, ⟨m', e'.hartState⟩) ∧ HoldsFlushed Platform.small e'.mem e'.hartState m' :=
  ⟨doubleMonitor_holds, _, _, rfl, rfl,
    run_space_on_monitor (by decide) (by decide) doubleDecode (fun _ => ⟨none⟩) 2
      ⟨doubleSpace, HartState.new⟩ doubleMonitor doubleMonitor_holds rfl⟩

end ZkvmRv64
