import ZkvmRv64.Basic

/-
  ZkvmRv64.Binfmt.Elf — `Program::load_elf` (binfmt/elf.rs): validate a parsed 64-bit
  RISC-V executable, project its `PT_LOAD` segments onto a word image
  (`BTreeMap<u64, u32>`), then overwrite the entry word of every symbol of the patch set
  with `ret` (`0x00008067`).

  The `elf` crate is a dependency, not part of the sources: `load_elf` takes what its
  `minimal_parse` returns as a parameter, and reads the parsed file through `ElfBytes`, the
  header fields, program headers and symbol table it uses. The input bytes themselves are
  read for the segment contents (`input.get(offset)`), as in the source.

  `load_elf` comes to an `Outcome` (it can panic: the `expect`s and `unwrap`s of the symbol
  patching) of a `Result` (`Except String`), whose error texts are the source's.
-/

namespace ZkvmRv64

/-! ## `BTreeMap<u64, u32>` -/

/-- `BTreeMap<u64, u32>`: its entries in ascending key order, each key once. -/
structure WordMap where
  entries : List (BitVec 64 × BitVec 32)
  sorted : entries.Pairwise (fun a b => a.1.toNat < b.1.toNat)

def insertEntry (k : BitVec 64) (v : BitVec 32) :
    List (BitVec 64 × BitVec 32) → List (BitVec 64 × BitVec 32)
  | [] => [(k, v)]
  | e :: es =>
    if k.toNat < e.1.toNat then (k, v) :: e :: es
    else if k = e.1 then (k, v) :: es
    else e :: insertEntry k v es

theorem mem_insertEntry {k : BitVec 64} {v : BitVec 32} {x : BitVec 64 × BitVec 32} :
    ∀ {es : List (BitVec 64 × BitVec 32)}, x ∈ insertEntry k v es → x = (k, v) ∨ x ∈ es
  | [], h => by simpa [insertEntry] using h
  | e :: es, h => by
    simp only [insertEntry] at h
    split at h
    · simpa using h
    · split at h
      · rcases List.mem_cons.mp h with h | h
        · exact .inl h
        · exact .inr (List.mem_cons_of_mem e h)
      · rcases List.mem_cons.mp h with h | h
        · exact .inr (h ▸ List.mem_cons_self x es)
        · rcases mem_insertEntry h with h | h
          · exact .inl h
          · exact .inr (List.mem_cons_of_mem e h)

theorem sorted_insertEntry (k : BitVec 64) (v : BitVec 32) :
    ∀ {es : List (BitVec 64 × BitVec 32)}, es.Pairwise (fun a b => a.1.toNat < b.1.toNat) →
      (insertEntry k v es).Pairwise (fun a b => a.1.toNat < b.1.toNat)
  | [], _ => by simp [insertEntry]
  | e :: es, h => by
    rw [List.pairwise_cons] at h
    simp only [insertEntry]
    split
    · next hk =>
      refine List.Pairwise.cons (fun x hx => ?_) (List.Pairwise.cons h.1 h.2)
      rcases List.mem_cons.mp hx with rfl | hx
      · exact hk
      · exact Nat.lt_trans hk (h.1 x hx)
    · split
      · next he => subst he; exact List.Pairwise.cons h.1 h.2
      · next hk he =>
        have hlt : e.1.toNat < k.toNat := by
          have : k.toNat ≠ e.1.toNat := fun h' => he (BitVec.eq_of_toNat_eq h')
          omega
        refine List.Pairwise.cons (fun x hx => ?_) (sorted_insertEntry k v h.2)
        rcases mem_insertEntry hx with rfl | hx
        · exact hlt
        · exact h.1 x hx

namespace WordMap

def empty : WordMap := ⟨[], .nil⟩

/-- `BTreeMap::insert`: the value at `k` becomes `v`. -/
def insert (m : WordMap) (k : BitVec 64) (v : BitVec 32) : WordMap :=
  ⟨insertEntry k v m.entries, sorted_insertEntry k v m.sorted⟩

/-- `BTreeMap::get`. -/
def get (m : WordMap) (k : BitVec 64) : Option (BitVec 32) := m.entries.lookup k

end WordMap

/-- A RISC Zero program: its entry point and initial word image. -/
structure Program where
  entry : BitVec 64
  image : WordMap

/-! ## What the `elf` crate hands `load_elf` -/

/-- `elf::file::Class`. -/
inductive Class where
  | ELF32
  | ELF64
  deriving DecidableEq, Repr

/-- A program header (`elf::segment::ProgramHeader`): the fields `load_elf` reads. -/
structure ProgramHeader where
  p_type : BitVec 32
  p_offset : BitVec 64
  p_vaddr : BitVec 64
  p_filesz : BitVec 64
  p_memsz : BitVec 64
  deriving DecidableEq, Repr

/-- A symbol (`elf::symbol::Symbol`): the fields `load_elf` reads. -/
structure Symbol where
  st_name : BitVec 32
  st_value : BitVec 64
  deriving DecidableEq, Repr

/-- `elf::string_table::StringTable::get`: the name at an offset, or the crate's error. -/
def StringTable := Nat → Except String String

/-- `ElfBytes<LittleEndian>` as `minimal_parse` returns it: the header fields, the segment
    table (`segments()`) and the symbol table (`symbol_table()`) that `load_elf` reads. -/
structure ElfBytes where
  /-- `ehdr.class`. -/
  ei_class : Class
  e_machine : BitVec 16
  e_type : BitVec 16
  e_entry : BitVec 64
  segments : Option (List ProgramHeader)
  symbol_table : Except String (Option (List Symbol × StringTable))

def EM_RISCV : BitVec 16 := 243
def ET_EXEC : BitVec 16 := 2
def PT_LOAD : BitVec 32 := 1

/-! ## `load_elf` -/

/-- `u64::checked_add`. -/
def checkedAdd (a b : BitVec 64) : Option (BitVec 64) :=
  if a.toNat + b.toNat < 2 ^ 64 then some (a + b) else none

/-- `(0..n).step_by(4)`. -/
def stepBy4 (n : BitVec 64) : List (BitVec 64) :=
  (List.range ((n.toNat + 3) / 4)).map fun k => BitVec.ofNat 64 (4 * k)

/-- The loop `for j in 0..len` that assembles a word from the file bytes at
    `offset + i + j` (with `n` bytes still to read from `j`). -/
def readWord (input : List (BitVec 8)) (offset i : BitVec 64) (word : BitVec 32) (j : Nat) :
    Nat → Except String (BitVec 32)
  | 0 => .ok word
  | n + 1 =>
    match input[(offset + i + BitVec.ofNat 64 j).toNat]? with
    | none => .error "Invalid segment offset"
    | some byte => readWord input offset i (word ||| (byte.setWidth 32 <<< (j * 8))) (j + 1) n

/-- The loop `for i in (0..mem_size).step_by(4)` of one `PT_LOAD` segment. -/
def loadWords (input : List (BitVec 8)) (file_size vaddr offset : BitVec 64) (image : WordMap) :
    List (BitVec 64) → Except String WordMap
  | [] => .ok image
  | i :: is =>
    match checkedAdd vaddr i with
    | none => .error "Invalid segment vaddr"
    | some addr =>
      if file_size ≤ i then loadWords input file_size vaddr offset (image.insert addr 0) is
      else
        match readWord input offset i 0 0 (min (file_size - i).toNat 4) with
        | .error e => .error e
        | .ok word => loadWords input file_size vaddr offset (image.insert addr word) is

/-- One program header: a `PT_LOAD` segment is checked and projected, any other skipped. -/
def loadSegment (input : List (BitVec 8)) (max_mem : BitVec 64) (image : WordMap)
    (segment : ProgramHeader) : Except String WordMap :=
  if segment.p_type ≠ PT_LOAD then .ok image
  else if max_mem ≤ segment.p_filesz then .error "Invalid segment file_size"
  else if max_mem ≤ segment.p_memsz then .error "Invalid segment mem_size"
  else loadWords input segment.p_filesz segment.p_vaddr segment.p_offset image
    (stepBy4 segment.p_memsz)

def loadSegments (input : List (BitVec 8)) (max_mem : BitVec 64) (image : WordMap) :
    List ProgramHeader → Except String WordMap
  | [] => .ok image
  | segment :: segments =>
    match loadSegment input max_mem image segment with
    | .error e => .error e
    | .ok image => loadSegments input max_mem image segments

/-- Everything `load_elf` does before the symbol patching: the checks, in order, and the
    segment projection. -/
def loadImage (minimal_parse : List (BitVec 8) → Except String ElfBytes) (input : List (BitVec 8))
    (max_mem : BitVec 64) : Except String (ElfBytes × BitVec 64 × WordMap) := do
  let elf ← minimal_parse input
  if elf.ei_class ≠ .ELF64 then throw "Not a 64-bit ELF"
  if elf.e_machine ≠ EM_RISCV then throw "Invalid machine type, must be RISC-V"
  if elf.e_type ≠ ET_EXEC then throw "Invalid ELF type, must be executable"
  let entry := elf.e_entry
  if max_mem ≤ entry ∨ entry.toNat % 4 ≠ 0 then throw "Invalid entrypoint"
  let some segments := elf.segments | throw "Missing segment table"
  if 256 < segments.length then throw "Too many program headers"
  let image ← loadSegments input max_mem WordMap.empty segments
  return (elf, entry, image)

/-- The patch set: symbols whose entry word becomes `ret`. -/
def patchSet : List String :=
  ["runtime.gcenable", "runtime.init.5", "runtime.main.func1", "runtime.deductSweepCredit",
   "runtime.(*gcControllerState).commit",
   "github.com/prometheus/client_golang/prometheus.init",
   "github.com/prometheus/client_golang/prometheus.init.0",
   "github.com/prometheus/procfs.init", "github.com/prometheus/common/model.init",
   "github.com/prometheus/client_model/go.init", "github.com/prometheus/client_model/go.init.0",
   "github.com/prometheus/client_model/go.init.1", "flag.init", "runtime.fastexprand",
   "runtime.getRandomData", "runtime.initsig", "runtime.check", "runtime.doInit"]

/-- `Result::unwrap`; the error is carried as its `Debug` text, which the message ends with. -/
def unwrapResult {α : Type} : Except String α → Outcome α
  | .ok a => .ret a
  | .error e => .panic ("called `Result::unwrap()` on an `Err` value: " ++ e)

/-- `symtab.iter().for_each(...)`: a patch-set symbol's word becomes `ret`; the `println!`
    before it unwraps `image.get(&entry.st_value)`. -/
def patchSymbols (strtab : StringTable) (image : WordMap) : List Symbol → Outcome WordMap
  | [] => .ret image
  | entry :: entries => do
    let symbol_name ← unwrapResult (strtab entry.st_name.toNat)
    if symbol_name ∈ patchSet then
      let _ ← unwrap (image.get entry.st_value)
      patchSymbols strtab (image.insert entry.st_value 0x00008067) entries
    else patchSymbols strtab image entries

def loadElf (minimal_parse : List (BitVec 8) → Except String ElfBytes) (input : List (BitVec 8))
    (max_mem : BitVec 64) : Outcome (Except String Program) :=
  match loadImage minimal_parse input max_mem with
  | .error e => .ret (.error e)
  | .ok (elf, entry, image) =>
    match elf.symbol_table with
    | .error e => .panic ("Failed to read symbol table: " ++ e)
    | .ok none => .panic "Failed to find strtab table"
    | .ok (some (symtab, strtab)) => do
      let image ← patchSymbols strtab image symtab
      return .ok ⟨entry, image⟩

/-! ## What `load_elf` checks -/

theorem except_ok_bind {ε α β : Type} (a : α) (f : α → Except ε β) : (Except.ok a >>= f) = f a := rfl

/-- An executable whose one `PT_LOAD` segment is a single zero word at `vaddr`, with an empty
    symbol table. -/
def bssElf (vaddr : BitVec 64) : ElfBytes where
  ei_class := .ELF64
  e_machine := EM_RISCV
  e_type := ET_EXEC
  e_entry := 0
  segments := some [⟨PT_LOAD, 0, vaddr, 0, 4⟩]
  symbol_table := .ok (some ([], fun _ => .error "no string table entries"))

/-- The symbol patching never returns `Err`: every error of `load_elf` is one of the checks or
    of the segment projection, and a missing or unreadable symbol table, a name outside the
    string table or a patched symbol that is not a key of the image panics instead. -/
theorem loadElf_error_iff (minimal_parse : List (BitVec 8) → Except String ElfBytes)
    (input : List (BitVec 8)) (max_mem : BitVec 64) (e : String) :
    loadElf minimal_parse input max_mem = .ret (.error e) ↔
      loadImage minimal_parse input max_mem = .error e := by
  unfold loadElf
  split
  · next h => simp [h]
  · next h =>
    simp only [h, reduceCtorEq, iff_false]
    split
    · exact Outcome.noConfusion
    · exact Outcome.noConfusion
    · intro hp
      obtain ⟨_, -, hp⟩ := Outcome.bind_eq_ret.mp hp
      cases hp

/-- A well-formed executable with no string table: `load_elf` returns no `Err` for it, and
    panics in the symbol phase. -/
theorem loadElf_error_iff_strtab_missing :
    (∀ e, loadElf (fun _ => .ok { bssElf 0 with symbol_table := .ok none }) [] 0x1000 ≠
        .ret (.error e)) ∧
      loadElf (fun _ => .ok { bssElf 0 with symbol_table := .ok none }) [] 0x1000 =
        .panic "Failed to find strtab table" := by
  have himg : loadImage (fun _ => .ok { bssElf 0 with symbol_table := .ok none }) [] 0x1000 =
      .ok ({ bssElf 0 with symbol_table := .ok none }, 0, WordMap.empty.insert 0 0) := rfl
  refine ⟨fun e h => ?_, rfl⟩
  rw [loadElf_error_iff, himg] at h
  cases h

/-- `load_elf` checks neither the alignment nor the range of `p_vaddr`: any `vaddr` becomes a
    key of the image. -/
theorem loadElf_accepts_any_vaddr (vaddr max_mem : BitVec 64) (hmem : 4 < max_mem) :
    loadElf (fun _ => .ok (bssElf vaddr)) [] max_mem =
      .ret (.ok ⟨0, WordMap.empty.insert vaddr 0⟩) := by
  have h0 : ¬ max_mem ≤ 0 := by bv_omega
  have h4 : ¬ max_mem ≤ 4 := by bv_omega
  have hstep : stepBy4 4 = [0] := by decide
  have hadd : checkedAdd vaddr 0 = some vaddr := by simp [checkedAdd, vaddr.isLt]
  have hseg : loadSegments [] max_mem WordMap.empty [⟨PT_LOAD, 0, vaddr, 0, 4⟩] =
      .ok (WordMap.empty.insert vaddr 0) := by
    simp only [loadSegments, loadSegment, loadWords, h0, h4, hstep, hadd, ne_eq,
      not_true_eq_false, if_false, BitVec.le_refl, if_true]
  have he : (0 : BitVec 64).toNat % 4 = 0 := rfl
  have himg : loadImage (fun _ => .ok (bssElf vaddr)) [] max_mem =
      .ok (bssElf vaddr, 0, WordMap.empty.insert vaddr 0) := by
    simp only [loadImage, except_ok_bind, bssElf, ne_eq, not_true_eq_false, if_false, h0,
      false_or, pure_bind, he, List.length_singleton, Nat.reduceLT, hseg]
    rfl
  rw [loadElf, himg]
  rfl

theorem loadElf_accepts_any_vaddr_mem_size :
    (4 : BitVec 64) < 0x1000 ∧
      loadElf (fun _ => .ok (bssElf 0x1000)) [] 0x1000 =
        .ret (.ok ⟨0, WordMap.empty.insert 0x1000 0⟩) :=
  ⟨by decide, loadElf_accepts_any_vaddr 0x1000 0x1000 (by decide)⟩

end ZkvmRv64
