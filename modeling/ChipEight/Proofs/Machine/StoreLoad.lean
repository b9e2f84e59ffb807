import ChipEight.Proofs.Machine.Invariant
import ChipEight.Proofs.Places

/-!
# Registers that are stored and loaded

Two instructions copy the registers up to some `x` to memory and back, one byte for each from where
the index register points.

**Theorem (`store_load`).** A machine that stores its registers up to `x` has each of them in its
place afterwards, and every other byte, the index register and all registers as before. If a
machine with the same index register and the same bytes there loads the registers up to `x`, they
have the values that were stored, whatever they were before, and the other registers, the index
register and memory are as they were. If these registers are then stored once more over the same
bytes, memory does not change at all.

Each copy is told byte by byte: `byteAt_written_of_inside` and `byteAt_written_of_outside` for what
is written from the index register on, and `get_load` for what is loaded from there.
-/

namespace ChipEight

/-! ## Registers as bytes -/

namespace Registers

variable {x k : Register}

theorem getElem?_upTo (r : Registers) (h : k ≤ x) : (r.upTo x)[k.val]? = some (r.get k) := by
  have hlt : k.val < r.v.toList.length := by
    rw [Vector.length_toList]
    exact k.isLt
  rw [upTo, List.getElem?_take_of_lt (Nat.lt_succ_of_le h), List.getElem?_eq_getElem hlt,
    Vector.getElem_toList]
  rfl

theorem get_setFirst (r : Registers) (values : List UInt8) :
    (r.setFirst values).get k = values.getD k.val (r.get k) := by
  simp [get, setFirst]

end Registers

namespace Machine

/-! ## What is written and loaded -/

theorem memory_load (m : Machine) (x : Register) : (m.effect (.load x)).memory = m.memory := by
  simp only [effect]

theorem index_load (m : Machine) (x : Register) :
    (m.effect (.load x)).registers.index = m.registers.index := by
  simp only [effect, Registers.setFirst]

namespace Sound

variable {m : Machine} (h : m.Sound)

include h

/-- A range at the index register that is not refused lies in the bytes of memory. -/
theorem range_le {length : Nat} (hrange : m.rangeFault? length = none) :
    m.registers.index.toNat + length ≤ m.memory.bytes.size := by
  have h0 := h.index_nonneg
  have h1 := (Memory.refusal?_eq_none.1 hrange).2
  rw [h.memory_size, ← h.bytes_size] at h1
  omega

section Written

variable {values : List UInt8} (hrange : m.rangeFault? values.length = none)

include hrange

theorem byteAt_written_of_inside {k : Nat} {value : UInt8} (hk : values[k]? = some value) :
    (m.written values).memory.byteAt (m.registers.index.toNat + k) = value := by
  obtain ⟨hlt, rfl⟩ := List.getElem?_eq_some_iff.1 hk
  exact Memory.byteAt_put_of_inside (h.range_le hrange) hlt

theorem byteAt_written_of_outside {address : Nat}
    (hout : address < m.registers.index.toNat ∨
      m.registers.index.toNat + values.length ≤ address) :
    (m.written values).memory.byteAt address = m.memory.byteAt address :=
  Memory.byteAt_put_of_outside (h.range_le hrange) hout

end Written

/-- A load takes the registers up to `x` from memory and keeps the others. -/
theorem get_load {x : Register} (hrange : m.rangeFault? (x.val + 1) = none) (k : Register) :
    (m.effect (.load x)).registers.get k =
      if k ≤ x then m.memory.byteAt (m.registers.index.toNat + k.val) else m.registers.get k := by
  have h0 := h.index_nonneg
  have hend := h.range_le hrange
  have hcount : (x.val : Int) + 1 = (x.val + 1 : Nat) := rfl
  refine (Registers.get_setFirst _ _).trans ?_
  rw [List.getD_eq_getElem?_getD, hcount, Memory.getElem?_block h0 (by omega)]
  by_cases hk : k ≤ x
  · rw [if_pos (Nat.lt_succ_of_le hk), if_pos hk, Option.getD_some]
  · rw [if_neg (mt Nat.le_of_lt_succ hk), if_neg hk, Option.getD_none]

end Sound

/-! ## Storing and loading -/

/-- The registers up to `x` are stored in two machines at the same place and with the same bytes. -/
structure SameStored (m m' : Machine) (x : Register) : Prop where
  index_eq : m'.registers.index = m.registers.index
  byte_eq : ∀ k ≤ x.val, m'.memory.byteAt (m.registers.index.toNat + k) =
    m.memory.byteAt (m.registers.index.toNat + k)

namespace SameStored

protected theorem refl (m : Machine) (x : Register) : SameStored m m x := ⟨rfl, fun _ _ => rfl⟩

/-- Registers that are set in between do not matter. -/
theorem of_setByte {m m' : Machine} (hsize : m.memory.size = memorySize) {y : Register}
    {value : UInt8} (hcycle : cycle m = .ok (some (.setByte y value)) m') (x : Register) :
    SameStored m m' x := by
  obtain ⟨-, hmemory, -, hindex, -⟩ := work_of_cycle hsize hcycle
  refine ⟨hindex, fun _ _ => ?_⟩
  rw [hmemory]
  rfl

end SameStored

namespace Sound

variable {m m' : Machine} (h : m.Sound) {x : Register}

include h

theorem byteAt_store (hcycle : cycle m = .ok (some (.store x)) m') {k : Register} (hk : k ≤ x) :
    m'.memory.byteAt (m.registers.index.toNat + k.val) = m.registers.get k := by
  obtain ⟨hwork, hmemory, -⟩ := work_of_cycle h.memory_size hcycle
  rw [hmemory]
  exact h.byteAt_written_of_inside (by rwa [length_upTo]) (m.registers.getElem?_upTo hk)

theorem byteAt_store_of_outside (hcycle : cycle m = .ok (some (.store x)) m') {address : Nat}
    (hout : address < m.registers.index.toNat ∨ m.registers.index.toNat + x.val < address) :
    m'.memory.byteAt address = m.memory.byteAt address := by
  obtain ⟨hwork, hmemory, -⟩ := work_of_cycle h.memory_size hcycle
  rw [hmemory]
  refine h.byteAt_written_of_outside (by rwa [length_upTo]) ?_
  rw [length_upTo]
  omega

/-- To store registers over their own bytes changes nothing in memory. -/
theorem memory_store_same (hcycle : cycle m = .ok (some (.store x)) m')
    (hbytes : ∀ k ≤ x, m.memory.byteAt (m.registers.index.toNat + k.val) = m.registers.get k) :
    m'.memory = m.memory := by
  have hmemory := (work_of_cycle h.memory_size hcycle).2.1
  refine Memory.ext_byteAt ?_ ?_ fun address => ?_
  · rw [hmemory, size_effect]
  · rw [hmemory]
    exact Memory.size_bytes_put _ _ _
  · by_cases hin : m.registers.index.toNat ≤ address ∧ address ≤ m.registers.index.toNat + x.val
    · obtain ⟨k, rfl⟩ := Nat.exists_eq_add_of_le hin.1
      have hx := x.isLt
      have hk : (⟨k, by omega⟩ : Register) ≤ x := by
        show k ≤ x.val
        omega
      exact (h.byteAt_store hcycle hk).trans (hbytes _ hk).symm
    · exact h.byteAt_store_of_outside hcycle (by omega)

theorem get_of_load (hcycle : cycle m = .ok (some (.load x)) m') (k : Register) :
    m'.registers.get k =
      if k ≤ x then m.memory.byteAt (m.registers.index.toNat + k.val) else m.registers.get k := by
  obtain ⟨hwork, -, hget, -⟩ := work_of_cycle h.memory_size hcycle
  exact (hget k).trans (h.get_load hwork k)

end Sound

/-- **Registers that are stored and loaded.** -/
theorem store_load {m stored : Machine} (hm : m.Reachable) {x : Register}
    (hstore : cycle m = .ok (some (.store x)) stored) :
    ((∀ k ≤ x, stored.memory.byteAt (m.registers.index.toNat + k.val) = m.registers.get k) ∧
      (∀ address, address < m.registers.index.toNat ∨
          m.registers.index.toNat + x.val < address →
        stored.memory.byteAt address = m.memory.byteAt address) ∧
      stored.registers.index = m.registers.index ∧
      ∀ k, stored.registers.get k = m.registers.get k) ∧
    ∀ later loaded, later.Reachable → SameStored stored later x →
      cycle later = .ok (some (.load x)) loaded →
      ((∀ k ≤ x, loaded.registers.get k = m.registers.get k) ∧
        (∀ k, x < k → loaded.registers.get k = later.registers.get k) ∧
        loaded.registers.index = later.registers.index ∧ loaded.memory = later.memory) ∧
      ∀ again last, again.Reachable → SameStored loaded again x →
        (∀ k ≤ x, again.registers.get k = loaded.registers.get k) →
        cycle again = .ok (some (.store x)) last → last.memory = again.memory := by
  have h : m.Sound := hm.sound
  obtain ⟨-, -, hkeep, hindex, -⟩ := work_of_cycle h.memory_size hstore
  refine ⟨⟨fun k hk => h.byteAt_store hstore hk,
    fun _ hout => h.byteAt_store_of_outside hstore hout, hindex, hkeep⟩, ?_⟩
  intro later loaded hlater hsame hload
  have hl : later.Sound := hlater.sound
  have hplace : later.registers.index = m.registers.index := hsame.index_eq.trans hindex
  -- A register comes back by way of its byte: stored, kept until the load, and read.
  have hget (k : Register) (hk : k ≤ x) : loaded.registers.get k = m.registers.get k := by
    have hbyte := hsame.byte_eq k.val hk
    rw [hindex] at hbyte
    rw [hl.get_of_load hload, if_pos hk, hplace]
    exact hbyte.trans (h.byteAt_store hstore hk)
  have hother (k : Register) (hk : x < k) : loaded.registers.get k = later.registers.get k := by
    rw [hl.get_of_load hload, if_neg (Fin.not_le.2 hk)]
  obtain ⟨-, hmemory, -, hindex', -⟩ := work_of_cycle hl.memory_size hload
  rw [memory_load] at hmemory
  rw [index_load] at hindex'
  refine ⟨⟨hget, hother, hindex', hmemory⟩, ?_⟩
  -- To store again writes the bytes that are there already.
  intro again last hagain hsame' hregs hstore'
  refine hagain.sound.memory_store_same hstore' fun k hk => ?_
  rw [hsame'.index_eq, hsame'.byte_eq k.val hk, hregs k hk, hl.get_of_load hload, if_pos hk,
    hindex', hmemory]

/-- A machine that is about to store two registers, with a program that goes on to overwrite the
second one, to load both and to store them again. -/
def atStore : Machine :=
  (programmed [0xA3, 0x00, 0x61, 0x2A, 0xF1, 0x55, 0x61, 0x00, 0xF1, 0x65, 0xF1, 0x55]).afterAll
    [.cycle, .cycle]

/-- The overwritten register has its value again after the load. -/
theorem store_load_atStore :
    ∃ stored later loaded last, atStore.Reachable ∧
      cycle atStore = .ok (some (.store 1)) stored ∧ later.Reachable ∧
      SameStored stored later 1 ∧ later.registers.get 1 = 0 ∧
      cycle later = .ok (some (.load 1)) loaded ∧ loaded.registers.get 1 = 42 ∧
      loaded.Reachable ∧ SameStored loaded loaded 1 ∧
      cycle loaded = .ok (some (.store 1)) last ∧ last.memory = loaded.memory := by
  let program : List UInt8 :=
    [0xA3, 0x00, 0x61, 0x2A, 0xF1, 0x55, 0x61, 0x00, 0xF1, 0x65, 0xF1, 0x55]
  let start := programmed program
  let ready := (start.afterWord 0xA300).afterWord 0x612A
  let stored := ready.afterWord 0xF155
  let later := stored.afterWord 0x6100
  let loaded := later.afterWord 0xF165
  have hprogram : start.memory = (Memory.blank memorySize).loadFont.put programBase program := rfl
  have hpoint : Cycles start (some (Instruction.decode 0xA300)) (start.afterWord 0xA300) :=
    .of_program (k := 0) hprogram (by decide) rfl rfl rfl rfl (by decide)
  have hset : Cycles (start.afterWord 0xA300) (some (Instruction.decode 0x612A)) ready :=
    .of_program (k := 2) hprogram (by decide) rfl rfl rfl rfl (by decide)
  have hstore : Cycles ready (some (Instruction.decode 0xF155)) stored :=
    .of_program (k := 4) hprogram (by decide) rfl rfl rfl rfl (by decide)
  -- From here on two bytes are written behind the program.
  have hmemory : stored.memory = start.memory.put 0x300 [0, 42] := rfl
  have hrange : (0x300 : Int).toNat + [(0 : UInt8), 42].length ≤ start.memory.bytes.size := by
    have hsize : start.memory.bytes.size = memorySize :=
      (Memory.size_bytes_put _ _ _).trans Memory.size_bytes_loadFont_blank
    rw [hsize]
    decide
  have hfetch {rest : List UInt8} {high low : UInt8} (k : Nat) (hlt : k < 12)
      (hk : program.drop k = high :: low :: rest) :
      (start.memory.put 0x300 [0, 42]).readWord (programBase + k) =
        .ok (Word.ofBytes high low) := by
    refine Memory.readWord_put_of_outside hrange (.inl ?_) <|
      Memory.readWord_put_drop Memory.size_bytes_loadFont_blank (by decide) (by decide) hk
    have hplace : (programBase + k).toNat = 0x200 + k := by
      unfold programBase
      omega
    rw [hplace]
    show 0x200 + k + 2 ≤ 0x300
    omega
  have hthird : (start.memory.put 0x300 [0, 42]).readWord 0x206 = .ok 0x6100 :=
    hfetch 6 (by decide) rfl
  have hfourth : (start.memory.put 0x300 [0, 42]).readWord 0x208 = .ok 0xF165 :=
    hfetch 8 (by decide) rfl
  have hfifth : (start.memory.put 0x300 [0, 42]).readWord 0x20A = .ok 0xF155 :=
    hfetch 10 (by decide) rfl
  have hclear : Cycles stored (some (Instruction.decode 0x6100)) later :=
    .word rfl hthird (by decide)
  have hload : Cycles later (some (Instruction.decode 0xF165)) loaded :=
    .word rfl hfourth (by decide)
  have hagain : Cycles loaded (some (Instruction.decode 0xF155)) (loaded.afterWord 0xF155) :=
    .word rfl hfifth (by decide)
  have heq : atStore = ready := by
    rw [atStore, hpoint.afterAll_cons, hset.afterAll_cons, afterAll_nil]
  have hm : atStore.Reachable := (reachable_programmed program).afterAll _
  rw [heq] at hm ⊢
  have hstored : stored.Reachable := after_cycle_of_cycles hstore ▸ hm.after .cycle
  have hlater : later.Reachable := after_cycle_of_cycles hclear ▸ hstored.after .cycle
  have hloaded : loaded.Reachable := after_cycle_of_cycles hload ▸ hlater.after .cycle
  have hdecode : Instruction.decode 0xF155 = .store 1 := by decide
  have hdecode' : Instruction.decode 0xF165 = .load 1 := by decide
  have hdecode'' : Instruction.decode 0x6100 = .setByte 1 0 := by decide
  rw [hdecode] at hstore hagain
  rw [hdecode'] at hload
  rw [hdecode''] at hclear
  have hsame : SameStored stored later 1 :=
    .of_setByte hstored.sound.memory_size hclear.cycle_eq 1
  have hsame' : SameStored loaded loaded 1 := .refl loaded 1
  obtain ⟨⟨hget, -⟩, hlast⟩ :=
    (store_load hm hstore.cycle_eq).2 later loaded hlater hsame hload.cycle_eq
  exact ⟨stored, later, loaded, _, hm, hstore.cycle_eq, hlater, hsame, rfl, hload.cycle_eq,
    (hget 1 (Nat.le_refl 1)).trans rfl, hloaded, hsame', hagain.cycle_eq,
    hlast loaded _ hloaded hsame' (fun _ _ => rfl) hagain.cycle_eq⟩

end Machine

end ChipEight
