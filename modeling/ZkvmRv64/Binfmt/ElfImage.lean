import ZkvmRv64.Binfmt.Elf

/-
  ZkvmRv64.Binfmt.ElfImage — what the image of an accepted executable holds.

  The reference image follows the spec's projection (§4.1), not `load_elf`'s loops.
  (1) Every `PT_LOAD` segment gives the pairs `(p_vaddr + i, word)` for `i = 0, 4, 8, …`
  below `p_memsz` (`segmentEntries`): the word is 0 from `p_filesz` on, and otherwise the
  little-endian value of the `min(4, p_filesz − i)` file bytes at `p_offset + i`
  (`segmentWord`). The segments are taken in table order, a later pair at an address winning
  over an earlier one (`segmentImage`). (2) Every symbol whose name is in the patch set puts
  `0x00008067` at its `st_value` (`specImage`).

  `load_elf` reads the byte at `(offset + i + j) as usize`, a `u64` sum that wraps. On an
  accepted input it never wraps: a segment reads the file bytes from `p_offset` on, one after
  another, so a sum past `u64::MAX` would come after a read at `u64::MAX`, past the end of any
  slice (a `&[u8]` holds fewer than 2^63 bytes), and that read fails first. The loop invariant
  of `loadWords_overwrites` carries this.

  Proved:
  - `loadElf_image`: when `load_elf` returns `Ok(program)`, `program.entry` is `e_entry`,
    `program.image` maps every `u64` key as the reference image does, and every key of the
    reference image is a `u64` key of the segments' image, so the patching adds no key.
-/

namespace ZkvmRv64

/-! ## The reference image -/

/-- The spec's word at offset `i` of a `PT_LOAD` segment: zero past `p_filesz`, otherwise the
    little-endian value of the (at most four) file bytes from `p_offset + i`. -/
def segmentWord (input : List (BitVec 8)) (segment : ProgramHeader) (i : Nat) : BitVec 32 :=
  if segment.p_filesz.toNat ≤ i then 0
  else (fromLeBytes ((input.drop (segment.p_offset.toNat + i)).take
    (min 4 (segment.p_filesz.toNat - i)))).setWidth 32

/-- The spec's pairs `(p_vaddr + i, word)` of one program header, `i = 0, 4, 8, …` below
    `p_memsz`; none unless it is `PT_LOAD`. -/
def segmentEntries (input : List (BitVec 8)) (segment : ProgramHeader) : List (Nat × BitVec 32) :=
  if segment.p_type = PT_LOAD then
    (List.range ((segment.p_memsz.toNat + 3) / 4)).map fun k =>
      (segment.p_vaddr.toNat + 4 * k, segmentWord input segment (4 * k))
  else []

/-- The first stage: the segments in table order, the last pair at an address winning. -/
def segmentImage (input : List (BitVec 8)) (segments : List ProgramHeader) (k : Nat) :
    Option (BitVec 32) :=
  (segments.flatMap (segmentEntries input)).reverse.lookup k

/-- Some symbol whose name is in the patch set has the value `k`. -/
def patched (strtab : StringTable) (symtab : List Symbol) (k : Nat) : Bool :=
  symtab.any fun s => s.st_value.toNat == k &&
    match strtab s.st_name.toNat with
    | .ok name => decide (name ∈ patchSet)
    | .error _ => false

/-- The second stage: `ret` at every patched key. -/
def specImage (input : List (BitVec 8)) (segments : List ProgramHeader) (symtab : List Symbol)
    (strtab : StringTable) (k : Nat) : Option (BitVec 32) :=
  if patched strtab symtab k then some 0x00008067 else segmentImage input segments k

/-- Six file bytes in twelve memory bytes: a full word, a two-byte tail word, a zero word. -/
example : (List.range 3).map (fun k => segmentImage [0x13, 0, 0, 0, 0xef, 0xbe]
    [⟨PT_LOAD, 0, 0x100, 6, 12⟩] (0x100 + 4 * k)) = [some 0x13, some 0xbeef, some 0] := by
  decide

/-! ## Writing pairs into a `WordMap` -/

theorem lookup_cons_ite {k a : BitVec 64} {b : BitVec 32} {es : List (BitVec 64 × BitVec 32)} :
    ((a, b) :: es).lookup k = if k = a then some b else es.lookup k := by
  by_cases h : k = a
  · simp [h]
  · simp [List.lookup_cons, h, beq_eq_false_iff_ne.mpr h]

theorem lookup_insertEntry (k k' : BitVec 64) (v : BitVec 32) :
    ∀ es : List (BitVec 64 × BitVec 32),
      (insertEntry k v es).lookup k' = if k' = k then some v else es.lookup k'
  | [] => by simp [insertEntry, lookup_cons_ite]
  | (a, b) :: es => by
    simp only [insertEntry]
    split
    · simp only [lookup_cons_ite]
    · split
      · next he =>
        subst he
        simp only [lookup_cons_ite]
        split <;> rfl
      · next he =>
        simp only [lookup_cons_ite, lookup_insertEntry k k' v es]
        by_cases h : k' = a
        · subst h
          simp [Ne.symm he]
        · simp [h]

@[simp] theorem WordMap.get_insert (m : WordMap) (k k' : BitVec 64) (v : BitVec 32) :
    (m.insert k v).get k' = if k' = k then some v else m.get k' :=
  lookup_insertEntry k k' v m.entries

/-- `m'` is `m` after writing the pairs `es` in order, a later pair winning; every address of
    `es` is a `u64`. -/
structure Overwrites (m m' : WordMap) (es : List (Nat × BitVec 32)) : Prop where
  get : ∀ k : BitVec 64, m'.get k = (es.reverse.lookup k.toNat).or (m.get k)
  keys : ∀ e ∈ es, e.1 < 2 ^ 64

theorem Overwrites.refl (m : WordMap) : Overwrites m m [] :=
  ⟨fun _ => rfl, fun _ h => absurd h (List.not_mem_nil _)⟩

theorem Overwrites.trans {m1 m2 m3 : WordMap} {es1 es2 : List (Nat × BitVec 32)}
    (h1 : Overwrites m1 m2 es1) (h2 : Overwrites m2 m3 es2) : Overwrites m1 m3 (es1 ++ es2) where
  get k := by rw [h2.get, h1.get, List.reverse_append, List.lookup_append, Option.or_assoc]
  keys e he := (List.mem_append.mp he).elim (h1.keys e) (h2.keys e)

theorem Overwrites.insert (m : WordMap) (k : BitVec 64) (v : BitVec 32) :
    Overwrites m (m.insert k v) [(k.toNat, v)] where
  get k' := by
    by_cases h : k' = k
    · simp [h]
    · have : (k'.toNat == k.toNat) = false := by simpa [BitVec.toNat_eq] using h
      simp [h, List.lookup_cons, this]
  keys e he := by
    rw [List.mem_singleton.mp he]
    exact k.isLt

/-! ## One word -/

theorem setWidth_fromLeBytes_cons (b : BitVec 8) (bs : List (BitVec 8)) :
    (fromLeBytes (b :: bs)).setWidth 32 = b.setWidth 32 ||| (fromLeBytes bs).setWidth 32 <<< 8 := by
  ext i
  have h64 : (i : Nat) < 64 := by omega
  have h32 : (i : Nat) - 8 < 32 := by omega
  simp [fromLeBytes, h64, h32]

/-- One more byte of the OR-accumulation is one more byte of the little-endian value. -/
theorem or_byte_shift (word : BitVec 32) (b : BitVec 8) (bs : List (BitVec 8)) (j : Nat) :
    word ||| b.setWidth 32 <<< (j * 8) ||| (fromLeBytes bs).setWidth 32 <<< ((j + 1) * 8) =
      word ||| (fromLeBytes (b :: bs)).setWidth 32 <<< (j * 8) := by
  have hj : (j + 1) * 8 = 8 + j * 8 := by omega
  rw [setWidth_fromLeBytes_cons, BitVec.shiftLeft_or_distrib, ← BitVec.shiftLeft_add, hj,
    BitVec.or_assoc]

/-- On success, `readWord` has read `n` bytes of the file one after another from
    `offset + i + j`, none past its end, and or-ed in their little-endian value at byte `j`. -/
theorem readWord_ok {input : List (BitVec 8)} (hlen : input.length < 2 ^ 64) {offset i : BitVec 64} :
    ∀ (n j : Nat) (word w : BitVec 32), offset.toNat + i.toNat + j < 2 ^ 64 →
      readWord input offset i word j n = .ok w →
      (0 < n → offset.toNat + i.toNat + j + n ≤ input.length) ∧
        w = word ||| (fromLeBytes ((input.drop (offset.toNat + i.toNat + j)).take n)).setWidth 32 <<< (j * 8)
  | 0, j, word, w, _, h => by
    cases h
    simp [fromLeBytes]
  | n + 1, j, word, w, hp, h => by
    have hidx : (offset + i + BitVec.ofNat 64 j).toNat = offset.toNat + i.toNat + j := by
      simp only [BitVec.toNat_add, BitVec.toNat_ofNat]
      omega
    simp only [readWord, hidx] at h
    split at h
    · cases h
    · next byte hb =>
      obtain ⟨hlt, hb⟩ := List.getElem?_eq_some_iff.mp hb
      obtain ⟨hl, rfl⟩ := readWord_ok hlen n (j + 1) _ w (by omega) h
      refine ⟨fun _ => ?_, ?_⟩
      · rcases Nat.eq_zero_or_pos n with rfl | hn
        · omega
        · have := hl hn
          omega
      · rw [List.drop_eq_getElem_cons hlt, List.take_succ_cons, hb, ← or_byte_shift]
        rfl

/-! ## One segment -/

theorem checkedAdd_eq_some {a b c : BitVec 64} (h : checkedAdd a b = some c) :
    c.toNat = a.toNat + b.toNat := by
  unfold checkedAdd at h
  split at h
  · next hlt =>
    cases h
    rw [BitVec.toNat_add, Nat.mod_eq_of_lt hlt]
  · cases h

/-- One iteration of the segment loop, at `i = 4 * s`: it inserts the spec's word at
    `p_vaddr + i`. The invariant (while the file bytes last, the next word's first byte lies
    below `2 ^ 64`) holds for the next offset: the bytes read were in the file. -/
theorem loadWords_cons {input : List (BitVec 8)} (hlen : input.length < 2 ^ 64)
    {segment : ProgramHeader} {s : Nat} {image image' : WordMap} {is : List (BitVec 64)}
    (hs : 4 * s < 2 ^ 64)
    (hoff : 4 * s < segment.p_filesz.toNat → segment.p_offset.toNat + 4 * s < 2 ^ 64)
    (h : loadWords input segment.p_filesz segment.p_vaddr segment.p_offset image
      (BitVec.ofNat 64 (4 * s) :: is) = .ok image') :
    ∃ addr : BitVec 64, addr.toNat = segment.p_vaddr.toNat + 4 * s ∧
      loadWords input segment.p_filesz segment.p_vaddr segment.p_offset
        (image.insert addr (segmentWord input segment (4 * s))) is = .ok image' ∧
      (4 * (s + 1) < segment.p_filesz.toNat → segment.p_offset.toNat + 4 * (s + 1) < 2 ^ 64) := by
  have hi : (BitVec.ofNat 64 (4 * s)).toNat = 4 * s := by
    simp only [BitVec.toNat_ofNat]
    omega
  simp only [loadWords] at h
  split at h
  · cases h
  · next addr hadd =>
    refine ⟨addr, by rw [checkedAdd_eq_some hadd, hi], ?_⟩
    split at h
    · next hle =>
      have hle : segment.p_filesz.toNat ≤ 4 * s := by
        rw [← hi]
        exact hle
      rw [show segmentWord input segment (4 * s) = 0 from if_pos hle]
      exact ⟨h, fun _ => by omega⟩
    · next hlt =>
      have hlt : 4 * s < segment.p_filesz.toNat := by
        rw [← hi]
        exact Nat.lt_of_not_le hlt
      split at h
      · cases h
      · next word hword =>
        have hn : (segment.p_filesz - BitVec.ofNat 64 (4 * s)).toNat =
            segment.p_filesz.toNat - 4 * s := by
          rw [BitVec.toNat_sub_of_le (by rw [BitVec.le_def, hi]; omega), hi]
        rw [hn] at hword
        obtain ⟨hl, hw⟩ := readWord_ok hlen _ 0 0 word (by rw [hi]; exact hoff hlt) hword
        have hw : segmentWord input segment (4 * s) = word := by
          rw [hw, hi]
          simp [segmentWord, Nat.not_le.mpr hlt, Nat.min_comm]
        rw [hw]
        refine ⟨h, fun h' => ?_⟩
        have := hl (by omega)
        rw [hi] at this
        omega

/-- The loop over `i = 4 * s, 4 * (s + 1), …` writes the spec's pairs for those offsets. -/
theorem loadWords_overwrites {input : List (BitVec 8)} (hlen : input.length < 2 ^ 64)
    (segment : ProgramHeader) :
    ∀ (m s : Nat) (image image' : WordMap), 4 * (s + m) ≤ 2 ^ 64 →
      (4 * s < segment.p_filesz.toNat → segment.p_offset.toNat + 4 * s < 2 ^ 64) →
      loadWords input segment.p_filesz segment.p_vaddr segment.p_offset image
        ((List.range' s m).map fun k => BitVec.ofNat 64 (4 * k)) = .ok image' →
      Overwrites image image' ((List.range' s m).map fun k =>
        (segment.p_vaddr.toNat + 4 * k, segmentWord input segment (4 * k)))
  | 0, _, image, _, _, _, h => by
    cases h
    exact .refl image
  | m + 1, s, image, image', hm, hoff, h => by
    simp only [List.range'_succ, List.map_cons] at h ⊢
    obtain ⟨addr, haddr, h, hoff⟩ := loadWords_cons hlen (by omega) hoff h
    rw [← haddr]
    exact (Overwrites.insert image addr _).trans
      (loadWords_overwrites hlen segment m (s + 1) _ image' (by omega) hoff h)

theorem loadSegment_overwrites {input : List (BitVec 8)} (hlen : input.length < 2 ^ 64)
    (max_mem : BitVec 64) {image image' : WordMap} {segment : ProgramHeader}
    (h : loadSegment input max_mem image segment = .ok image') :
    Overwrites image image' (segmentEntries input segment) := by
  unfold loadSegment at h
  unfold segmentEntries
  by_cases ht : segment.p_type = PT_LOAD
  · simp only [ht, ne_eq, not_true_eq_false, if_false, if_true] at h ⊢
    split at h
    · cases h
    split at h
    · cases h
    rw [stepBy4, List.range_eq_range'] at h
    rw [List.range_eq_range']
    have := segment.p_memsz.isLt
    exact loadWords_overwrites hlen segment _ 0 image image' (by omega)
      (fun _ => by simpa using segment.p_offset.isLt) h
  · simp only [ht, ne_eq, not_false_eq_true, if_true, if_false] at h ⊢
    cases h
    exact .refl image

/-- The segment table, header after header. -/
theorem loadSegments_overwrites {input : List (BitVec 8)} (hlen : input.length < 2 ^ 64)
    (max_mem : BitVec 64) :
    ∀ (segments : List ProgramHeader) (image image' : WordMap),
      loadSegments input max_mem image segments = .ok image' →
      Overwrites image image' (segments.flatMap (segmentEntries input))
  | [], image, _, h => by
    cases h
    exact .refl image
  | segment :: segments, image, image', h => by
    simp only [loadSegments] at h
    split at h
    · cases h
    · next image1 h1 =>
      exact (loadSegment_overwrites hlen max_mem h1).trans
        (loadSegments_overwrites hlen max_mem segments image1 image' h)

/-! ## The symbol patching -/

theorem patched_cons {strtab : StringTable} {s : Symbol} {name : String}
    (hname : strtab s.st_name.toNat = .ok name) (symtab : List Symbol) (k : Nat) :
    patched strtab (s :: symtab) k = (s.st_value.toNat == k && decide (name ∈ patchSet) ||
      patched strtab symtab k) := by
  simp [patched, hname]

/-- `patchSymbols` puts `ret` at every patched key, each of which it found in the image. -/
theorem patchSymbols_ok (strtab : StringTable) :
    ∀ (symtab : List Symbol) (image image' : WordMap), patchSymbols strtab image symtab = .ret image' →
      (∀ k : BitVec 64, image'.get k =
        if patched strtab symtab k.toNat then some 0x00008067 else image.get k) ∧
      ∀ k : BitVec 64, patched strtab symtab k.toNat → (image.get k).isSome
  | [], image, _, h => by
    cases h
    simp [patched]
  | s :: symtab, image, image', h => by
    obtain ⟨name, hname, h⟩ := Outcome.bind_eq_ret.mp h
    have hname : strtab s.st_name.toNat = .ok name := by
      unfold unwrapResult at hname
      split at hname <;> cases hname
      assumption
    simp only [patched_cons hname]
    by_cases hp : name ∈ patchSet
    · rw [if_pos hp] at h
      obtain ⟨v, hv, h⟩ := Outcome.bind_eq_ret.mp h
      have hv : image.get s.st_value = some v := by
        unfold unwrap at hv
        split at hv <;> cases hv
        assumption
      obtain ⟨hget, hkeys⟩ := patchSymbols_ok strtab symtab _ image' h
      refine ⟨fun k => ?_, fun k hk => ?_⟩
      · rw [hget k]
        by_cases hk : k = s.st_value
        · subst hk
          simp [hp]
        · have : (s.st_value.toNat == k.toNat) = false := by
            simpa [BitVec.toNat_eq] using Ne.symm hk
          simp [hk, this]
      · by_cases hk' : k = s.st_value
        · rw [hk', hv]
          rfl
        · have : (s.st_value.toNat == k.toNat) = false := by
            simpa [BitVec.toNat_eq] using Ne.symm hk'
          simp only [this, Bool.false_and, Bool.false_or] at hk
          simpa [hk'] using hkeys k hk
    · rw [if_neg hp] at h
      simp only [hp, decide_False, Bool.and_false, Bool.false_or]
      exact patchSymbols_ok strtab symtab image image' h

/-! ## `load_elf` -/

/-- A passed check of a `do` block: `if c then throw e` and then `rest`. -/
theorem ok_of_check {ε α : Type} {c : Prop} [Decidable c] {e : ε} {rest : Except ε α} {a : α}
    (h : (if c then (throw e : Except ε Unit) >>= (fun _ => rest)
      else (pure () : Except ε Unit) >>= fun _ => rest) = .ok a) : ¬c ∧ rest = .ok a := by
  split at h
  · cases h
  · exact ⟨by assumption, h⟩

/-- What an accepted `loadImage` went through: the parse, and the segment table it projected. -/
theorem loadImage_ok {minimal_parse : List (BitVec 8) → Except String ElfBytes}
    {input : List (BitVec 8)} {max_mem : BitVec 64} {elf : ElfBytes} {entry : BitVec 64}
    {image : WordMap} (h : loadImage minimal_parse input max_mem = .ok (elf, entry, image)) :
    minimal_parse input = .ok elf ∧ entry = elf.e_entry ∧
      ∃ segments, elf.segments = some segments ∧
        loadSegments input max_mem WordMap.empty segments = .ok image := by
  unfold loadImage at h
  cases hp : minimal_parse input with
  | error e =>
    rw [hp] at h
    cases h
  | ok elf' =>
    simp only [hp, except_ok_bind] at h
    obtain ⟨-, h⟩ := ok_of_check h
    obtain ⟨-, h⟩ := ok_of_check h
    obtain ⟨-, h⟩ := ok_of_check h
    obtain ⟨-, h⟩ := ok_of_check h
    split at h
    · next segments hs =>
      obtain ⟨-, h⟩ := ok_of_check h
      cases hl : loadSegments input max_mem WordMap.empty segments with
      | error e =>
        rw [hl] at h
        cases h
      | ok image' =>
        rw [hl] at h
        cases h
        exact ⟨rfl, rfl, segments, hs, hl⟩
    · cases h

/-- What an accepted `load_elf` went through: `loadImage`, the symbol table and the patching. -/
theorem loadElf_ok {minimal_parse : List (BitVec 8) → Except String ElfBytes}
    {input : List (BitVec 8)} {max_mem : BitVec 64} {program : Program}
    (h : loadElf minimal_parse input max_mem = .ret (.ok program)) :
    ∃ elf image symtab strtab, loadImage minimal_parse input max_mem = .ok (elf, program.entry, image) ∧
      elf.symbol_table = .ok (some (symtab, strtab)) ∧ patchSymbols strtab image symtab = .ret program.image := by
  unfold loadElf at h
  split at h
  · cases h
  · next elf entry image himg =>
    split at h
    · cases h
    · cases h
    · next symtab strtab hs =>
      obtain ⟨image', hp, h⟩ := Outcome.bind_eq_ret.mp h
      cases h
      exact ⟨elf, image, symtab, strtab, himg, hs, hp⟩

/-- The image of an accepted executable is the reference image: the spec's words of the
    `PT_LOAD` segments in table order, then `ret` at every patched symbol; the reference image
    has no key past `u64::MAX`, and the patching adds none. The file is a Rust slice, shorter
    than `2 ^ 64` bytes. -/
theorem loadElf_image (minimal_parse : List (BitVec 8) → Except String ElfBytes)
    (input : List (BitVec 8)) (max_mem : BitVec 64) (program : Program)
    (hlen : input.length < 2 ^ 64) (h : loadElf minimal_parse input max_mem = .ret (.ok program)) :
    ∃ elf segments symtab strtab, minimal_parse input = .ok elf ∧ elf.segments = some segments ∧
      elf.symbol_table = .ok (some (symtab, strtab)) ∧ program.entry = elf.e_entry ∧
      (∀ k : BitVec 64, program.image.get k = specImage input segments symtab strtab k.toNat) ∧
      ∀ k : Nat, (specImage input segments symtab strtab k).isSome →
        k < 2 ^ 64 ∧ (segmentImage input segments k).isSome := by
  obtain ⟨elf, image, symtab, strtab, himg, hs, hp⟩ := loadElf_ok h
  obtain ⟨hparse, hentry, segments, hsegs, hl⟩ := loadImage_ok himg
  have hw := loadSegments_overwrites hlen max_mem segments _ _ hl
  have hseg : ∀ k : BitVec 64, image.get k = segmentImage input segments k.toNat := fun k => by
    rw [hw.get k]
    exact Option.or_none
  have hkeys : ∀ k : Nat, (segmentImage input segments k).isSome → k < 2 ^ 64 := fun k hk => by
    obtain ⟨e, he, hk⟩ := List.lookup_isSome_iff.mp hk
    rw [beq_iff_eq.mp hk]
    exact hw.keys e (List.mem_reverse.mp he)
  obtain ⟨hget, hpatch⟩ := patchSymbols_ok strtab symtab image _ hp
  refine ⟨elf, segments, symtab, strtab, hparse, hsegs, hs, hentry, fun k => ?_, fun k hk => ?_⟩
  · rw [hget k, hseg k]
    rfl
  · unfold specImage at hk
    split at hk
    · next hpk =>
      obtain ⟨s, -, hs⟩ := List.any_eq_true.mp hpk
      obtain rfl := beq_iff_eq.mp (Bool.and_eq_true_iff.mp hs).1
      have := hpatch s.st_value hpk
      rw [hseg] at this
      exact ⟨s.st_value.isLt, this⟩
    · exact ⟨hkeys k hk, hk⟩

/-- One `PT_LOAD` segment at `0x100` of six file bytes and twelve memory bytes: a full word, a
    two-byte tail word and a zero word; `runtime.gcenable` is at `0x100`, `main.main` at `0x104`. -/
def tailElf : ElfBytes where
  ei_class := .ELF64
  e_machine := EM_RISCV
  e_type := ET_EXEC
  e_entry := 0x100
  segments := some [⟨PT_LOAD, 0, 0x100, 6, 12⟩]
  symbol_table := .ok (some ([⟨1, 0x100⟩, ⟨18, 0x104⟩], fun n =>
    if n = 1 then .ok "runtime.gcenable" else if n = 18 then .ok "main.main" else .error "no name"))

def tailBytes : List (BitVec 8) := [0x13, 0, 0, 0, 0xef, 0xbe]

theorem loadElf_image_tail_word :
    tailBytes.length < 2 ^ 64 ∧
      ∃ program, loadElf (fun _ => .ok tailElf) tailBytes 0x1000 = .ret (.ok program) ∧
      ∃ elf segments symtab strtab, (.ok tailElf : Except String ElfBytes) = .ok elf ∧
        elf.segments = some segments ∧ elf.symbol_table = .ok (some (symtab, strtab)) ∧
        program.entry = elf.e_entry ∧
        (∀ k : BitVec 64, program.image.get k = specImage tailBytes segments symtab strtab k.toNat) ∧
        ∀ k : Nat, (specImage tailBytes segments symtab strtab k).isSome →
          k < 2 ^ 64 ∧ (segmentImage tailBytes segments k).isSome :=
  ⟨by decide, _, rfl, loadElf_image (fun _ => .ok tailElf) tailBytes 0x1000 _ (by decide) rfl⟩

end ZkvmRv64
