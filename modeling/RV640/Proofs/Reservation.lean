import RV640.Lib.Run
import RV640.Proofs.PreciseTrap
import RV640.Proofs.RamAccess

set_option autoImplicit false

/-! # Load-reserved and store-conditional

A run of the hart on RAM is logged: which reservations were made, which store-conditionals and
resets took place, and which bytes were written. A store-conditional may succeed only when the log
justifies it. `bus_write` drops the reservation for a write inside the reserved bytes, while the log
counts every write that overlaps them. The two agree as long as no write overlaps the reserved bytes
without lying inside them.
-/

namespace RV640

open Bits

variable {c : Cfg}

/-! ## Operations and their log -/

/-- One operation on RAM. `other` is everything that leaves the bus and the RAM alone: the other
instructions, traps and device activity between two accesses. -/
inductive RamOp (c : Cfg) where
  | lr (funct3 : BitVec 3) (rd rs1 : Reg)
  | sc (funct3 : BitVec 3) (rd rs1 rs2 : Reg)
  | amo (funct3 : BitVec 3) (funct5 : BitVec 5) (rd rs1 rs2 : Reg)
  | store (funct3 : BitVec 3) (simm : BitVec 32) (rs1 rs2 : Reg)
  | cboZero (rs1 : Reg)
  | reset (mode : PrivMode) (start : Addr c)
  | other (m : Machine c)

/-- What an operation leaves in the log of a run. -/
inductive LogEntry (c : Cfg) where
  | lr (addr : Addr c) (size : Nat)
  | sc (addr : Addr c) (size : Nat)
  | write (addr : Addr c) (size : Nat)
  | reset
  deriving DecidableEq

/-- The bytes an entry is about. -/
def LogEntry.range : LogEntry c → Option (Addr c × Nat)
  | .lr addr size => some (addr, size)
  | .sc addr size => some (addr, size)
  | .write addr size => some (addr, size)
  | .reset => none

namespace RamOp

/-- The machine after an operation. -/
def exec (m : Machine c) : RamOp c → Machine c
  | .lr funct3 rd rs1 => doAMO m funct3 2#5 rd rs1 0#5
  | .sc funct3 rd rs1 rs2 => doAMO m funct3 3#5 rd rs1 rs2
  | .amo funct3 funct5 rd rs1 rs2 => doAMO m funct3 funct5 rd rs1 rs2
  | .store funct3 simm rs1 rs2 => doSTORE m funct3 simm rs1 rs2
  | .cboZero rs1 => doMISCMEM m 2#3 4#32 0#5 rs1
  | .reset mode start => rvReset m mode start
  | .other m' => { m' with bus := m.bus, ram := m.ram }

/-- The entry of an operation that completes, with the address and size it computes from the state
before it. -/
def entry (m : Machine c) : RamOp c → Option (LogEntry c)
  | .lr funct3 _ rs1 => some (.lr ((readReg m.cpu rs1).setWidth _) (amoSize c funct3))
  | .sc funct3 _ rs1 _ => some (.sc ((readReg m.cpu rs1).setWidth _) (amoSize c funct3))
  | .amo funct3 _ _ rs1 _ => some (.write ((readReg m.cpu rs1).setWidth _) (amoSize c funct3))
  | .store funct3 simm rs1 _ =>
      let offset : Addr c := signExtend (simm.setWidth _) 11
      some (.write ((readReg m.cpu rs1 + offset.setWidth _).setWidth _) (1 <<< funct3.toNat))
  | .cboZero rs1 =>
      let mask : Addr c := ~~~BitVec.ofNat _ (dcacheLineSize - 1)
      some (.write ((readReg m.cpu rs1 &&& mask.setWidth _).setWidth _) dcacheLineSize)
  | .reset _ _ => some .reset
  | .other _ => none

/-- What an operation adds to the log: nothing when it traps. -/
def logged (m : Machine c) (op : RamOp c) : List (LogEntry c) :=
  if (op.exec m).cpu.trap then [] else (op.entry m).toList

/-- `funct5` of an AMO names a read-modify-write operation. -/
def wellFormed : RamOp c → Bool
  | .amo _ funct5 _ _ _ => decide (funct5 ∈ rmwFunct5)
  | _ => true

/-- The operation may take place: it accesses bytes of RAM, and no trap is latched before it. -/
def OnRam (ramSize : Nat) (m : Machine c) (op : RamOp c) : Prop :=
  op.wellFormed = true ∧
    match (op.entry m).bind LogEntry.range with
    | some (addr, size) => m.cpu.trap = false ∧ InRam ramSize addr size
    | none => True

instance (ramSize : Nat) (m : Machine c) (op : RamOp c) : Decidable (OnRam ramSize m op) := by
  unfold OnRam
  refine @instDecidableAnd _ _ _ ?_
  split <;> infer_instance

end RamOp

/-- A machine and the log of the run that led to it. -/
structure Logged (c : Cfg) where
  machine : Machine c
  log : List (LogEntry c)

/-- One operation on a logged machine. -/
def Logged.step (s : Logged c) (op : RamOp c) : Logged c :=
  ⟨op.exec s.machine, s.log ++ op.logged s.machine⟩

/-! ## What the log justifies -/

/-- Two ranges without a common byte. -/
def RangesDisjoint (a : Addr c) (s : Nat) (r : Addr c) (q : Nat) : Prop :=
  a.toNat + s ≤ r.toNat ∨ r.toNat + q ≤ a.toNat

/-- The first range lies in the second. -/
def RangeInside (a : Addr c) (s : Nat) (r : Addr c) (q : Nat) : Prop :=
  r.toNat ≤ a.toNat ∧ a.toNat + s ≤ r.toNat + q

instance (a : Addr c) (s : Nat) (r : Addr c) (q : Nat) : Decidable (RangesDisjoint a s r q) := by
  unfold RangesDisjoint
  infer_instance

instance (a : Addr c) (s : Nat) (r : Addr c) (q : Nat) : Decidable (RangeInside a s r q) := by
  unfold RangeInside
  infer_instance

/-- The reservation `[r, r + q)` stands: it was made, and the log since then holds no other
reservation, no store-conditional, no reset and no write that overlaps it. -/
def Stands (log : List (LogEntry c)) (r : Addr c) (q : Nat) : Prop :=
  ∃ pre post, log = pre ++ .lr r q :: post ∧
    ∀ e ∈ post, ∃ a s, e = .write a s ∧ RangesDisjoint a s r q

/-- A store-conditional of `size` bytes at `addr` may succeed. -/
def ScJustified (log : List (LogEntry c)) (addr : Addr c) (size : Nat) : Prop :=
  ∃ r q, Stands log r q ∧ RangeInside addr size r q

theorem Stands.write {log : List (LogEntry c)} {r : Addr c} {q : Nat} (h : Stands log r q)
    {a : Addr c} {s : Nat} (hd : RangesDisjoint a s r q) : Stands (log ++ [.write a s]) r q := by
  obtain ⟨pre, post, rfl, hpost⟩ := h
  refine ⟨pre, post ++ [.write a s], by simp, ?_⟩
  intro e he
  rcases List.mem_append.mp he with he | he
  · exact hpost e he
  · exact ⟨a, s, List.mem_singleton.mp he, hd⟩

theorem stands_lr (log : List (LogEntry c)) (r : Addr c) (q : Nat) :
    Stands (log ++ [.lr r q]) r q :=
  ⟨log, [], rfl, fun _ he => absurd he List.not_mem_nil⟩

/-! ## The reservation of the bus -/

/-- `_includes` on two ranges that do not wrap. -/
theorem includes_iff_inside {a r : Addr c} {s q : Nat} (ha : a.toNat + s < 2 ^ c.alen)
    (hr : r.toNat + q < 2 ^ c.alen) :
    includes r (cpuSize q) a (cpuSize s) = true ↔ RangeInside a s r q := by
  simp only [includes, cpuSize, Bool.and_eq_true, decide_eq_true_eq, BitVec.le_def,
    BitVec.toNat_add, BitVec.toNat_ofNat, Nat.add_mod_mod, Nat.mod_eq_of_lt ha,
    Nat.mod_eq_of_lt hr, RangeInside]

/-- The bus with its reservation dropped. -/
def dropReservation (bus : Bus c DevKind) : Bus c DevKind :=
  { bus with reservation := { bus.reservation with valid := false } }

theorem dropReservation_of_invalid {bus : Bus c DevKind} (h : bus.reservation.valid = false) :
    dropReservation bus = bus := by
  obtain ⟨devices, bound, addr, size, valid⟩ := bus
  simp only at h
  subst h
  rfl

theorem checkInvalidate_eq (bus : Bus c DevKind) (addr : Addr c) (size : Nat) :
    (busReservationCheckInvalidate bus addr size).1 = dropReservation bus := by
  unfold busReservationCheckInvalidate
  split
  · rfl
  · rename_i h
    exact (dropReservation_of_invalid (by simpa using h)).symm

/-- `bus_write` keeps the reservation only when the write is not inside it. -/
theorem writeInvalidate_valid {bus : Bus c DevKind} {addr : Addr c} {size : Nat}
    (h : (busWriteInvalidate bus addr size).reservation.valid = true) :
    busWriteInvalidate bus addr size = bus ∧ bus.reservation.valid = true ∧
      includes bus.reservation.addr (cpuSize bus.reservation.size) addr (cpuSize size) = false := by
  unfold busWriteInvalidate at h ⊢
  split at h
  · cases h
  · rename_i hn
    rw [if_neg hn]
    refine ⟨rfl, h, ?_⟩
    simpa [h] using hn

/-! ## Accesses of the operations -/

section

variable {ramSize : Nat} {m : Machine c}

/-- The register value of `_doAMO` keeps the bytes it stores. -/
theorem toBytes_amoRs2 {size : Nat} (h : size ≤ c.wordBytes) (x : Word c) :
    toBytes size (signExtend (x &&& (cpuUintMax : Word c) >>> (c.xlen - size * 8)) (size * 8 - 1))
      = toBytes size x := by
  have hw : size * 8 ≤ c.xlen := by
    have h8 : c.wordBytes * 8 = c.xlen := by cases c <;> rfl
    omega
  unfold toBytes
  apply List.map_congr_left
  intro i hi
  have hi := List.mem_range.mp hi
  apply BitVec.eq_of_getLsbD_eq
  intro j hj
  rw [BitVec.getLsbD_extractLsb', BitVec.getLsbD_extractLsb',
    getLsbD_signExtend _ _ _ (by omega)]
  have hmask : ∀ k, k < size * 8 →
      (x &&& (cpuUintMax : Word c) >>> (c.xlen - size * 8)).getLsbD k = x.getLsbD k := by
    intro k hk
    have : c.xlen - size * 8 + k < c.xlen := by omega
    simp [cpuUintMax, BitVec.getLsbD_ushiftRight, this]
  rw [hmask _ (by omega), hmask _ (by omega)]
  by_cases hk : 8 * i + j = size * 8 - 1
  · rw [hk]
    cases x.getLsbD (size * 8 - 1) <;> simp
  · have hlt : ¬ (size * 8 - 1 ≤ 8 * i + j) := by omega
    simp [hlt]

theorem amoSize_le (c : Cfg) (funct3 : BitVec 3) : amoSize c funct3 ≤ c.wordBytes :=
  Nat.min_le_right _ _

/-- `_doAMO` on a misaligned address. -/
theorem doAMO_misaligned (funct3 : BitVec 3) (funct5 : BitVec 5) (rd rs1 rs2 : Reg)
    (h : ((readReg m.cpu rs1).setWidth _ : Addr c).toNat &&& (amoSize c funct3 - 1) ≠ 0) :
    doAMO m funct3 funct5 rd rs1 rs2 = { m with cpu := trap m.cpu .stAllign } := by
  rw [doAMO, if_pos h]

/-- The address of an atomic. -/
def amoAddr (m : Machine c) (rs1 : Reg) : Addr c := (readReg m.cpu rs1).setWidth _

/-- The operand of an atomic, cut to the size and extended. -/
def amoRs2Val (m : Machine c) (funct3 : BitVec 3) (rs2 : Reg) : Word c :=
  signExtend (readReg m.cpu rs2 &&& (cpuUintMax : Word c) >>> (c.xlen - amoSize c funct3 * 8))
    (amoSize c funct3 * 8 - 1)

/-- The value an atomic reads, extended. -/
def amoOldVal (m : Machine c) (funct3 : BitVec 3) (rs1 : Reg) : Word c :=
  signExtend (ofBytes (memRead m.ram (ramOffset (amoAddr m rs1)) (amoSize c funct3)))
    (amoSize c funct3 * 8 - 1)

section

variable (hdev : MainDevices ramSize m.bus) (hsz : ramSize ≤ ramSizeMax)
  (htrap : m.cpu.trap = false) (funct3 : BitVec 3) (funct5 : BitVec 5) (rd rs1 rs2 : Reg)
  (hal : (amoAddr m rs1).toNat &&& (amoSize c funct3 - 1) = 0)
  (hin : InRam ramSize (amoAddr m rs1) (amoSize c funct3))

include hdev hsz htrap hal hin

/-- `_doAMO` on aligned bytes of RAM: the read has no effect. -/
theorem doAMO_inRam : doAMO m funct3 funct5 rd rs1 rs2
    = amoTail (amoSwitch m funct5 rs2 (amoAddr m rs1) (amoSize c funct3)
        (amoRs2Val m funct3 rs2) (amoOldVal m funct3 rs1)) rd (amoAddr m rs1)
        (amoSize c funct3) := by
  unfold amoAddr at hal hin
  simp only [doAMO, hal, ne_eq, not_true_eq_false, if_false, readMem_inRam hdev hsz htrap hin]
  rfl

/-- LR makes its reservation and completes. -/
theorem doLR_inRam : doAMO m funct3 2#5 rd rs1 0#5 = { m with
    bus := busReservationCreate m.bus (amoAddr m rs1) (amoSize c funct3)
    cpu := writeReg m.cpu rd (amoOldVal m funct3 rs1) } := by
  rw [doAMO_inRam hdev hsz htrap funct3 2#5 rd rs1 0#5 hal hin]
  rfl

/-- An AMO writes its bytes and completes. -/
theorem doRMW_inRam {res : Word c}
    (hop : amoOp funct5 (amoRs2Val m funct3 rs2) (amoOldVal m funct3 rs1) = some res) :
    doAMO m funct3 funct5 rd rs1 rs2 = { m with
      bus := busWriteInvalidate m.bus (amoAddr m rs1) (amoSize c funct3)
      ram := memWrite m.ram (ramOffset (amoAddr m rs1)) (toBytes (amoSize c funct3) res)
      cpu := writeReg m.cpu rd (amoOldVal m funct3 rs1) } := by
  have htrap' : (writeReg m.cpu rd (amoOldVal m funct3 rs1)).trap = false := by
    rw [writeReg_trap, htrap]
  have hin' : InRam ramSize (amoAddr m rs1) (toBytes (amoSize c funct3) res).length := by
    rw [toBytes_length]
    exact hin
  have hw := writeMem_inRam
    (m := { m with cpu := writeReg m.cpu rd (amoOldVal m funct3 rs1) }) hdev hsz htrap' hin'
  rw [toBytes_length] at hw
  rw [doAMO_inRam hdev hsz htrap funct3 funct5 rd rs1 rs2 hal hin,
    amoSwitch_of_op _ _ _ _ _ _ hop]
  simp only [amoTail, if_true, hw]

/-- SC that passes the check: its bytes are stored and the result is 0. -/
theorem doSC_success
    (hok : (busReservationCheckInvalidate m.bus (amoAddr m rs1) (amoSize c funct3)).2 = true) :
    doAMO m funct3 3#5 rd rs1 rs2 = { m with
      bus := dropReservation m.bus
      ram := memWrite m.ram (ramOffset (amoAddr m rs1))
        (toBytes (amoSize c funct3) (readReg m.cpu rs2))
      cpu := writeReg m.cpu rd 0#_ } := by
  have h := doAMO_inRam hdev hsz htrap funct3 3#5 rd rs1 rs2 hal hin
  have htrap' : (writeReg m.cpu rd (0#_ : Word c)).trap = false := by rw [writeReg_trap, htrap]
  have hbytes := toBytes_amoRs2 (amoSize_le c funct3) (readReg m.cpu rs2)
  have hin' : InRam ramSize (amoAddr m rs1)
      (toBytes (amoSize c funct3) (amoRs2Val m funct3 rs2)).length := by
    rw [toBytes_length]
    exact hin
  have hw := writeMem_inRam
    (m := { m with bus := dropReservation m.bus, cpu := writeReg m.cpu rd 0#_ })
    hdev hsz htrap' hin'
  -- the store finds the reservation already dropped
  have hbus : busWriteInvalidate (dropReservation m.bus) (amoAddr m rs1)
      (toBytes (amoSize c funct3) (amoRs2Val m funct3 rs2)).length = dropReservation m.bus := rfl
  rw [h]
  simp only [amoTail, amoSwitch, hok, checkInvalidate_eq, if_true]
  rw [hw, hbus, amoRs2Val, hbytes]

/-- SC that fails the check: nothing is stored and the result is 1. -/
theorem doSC_failure
    (hok : (busReservationCheckInvalidate m.bus (amoAddr m rs1) (amoSize c funct3)).2 = false) :
    doAMO m funct3 3#5 rd rs1 rs2 = { m with
      bus := dropReservation m.bus
      cpu := writeReg m.cpu rd 1#_ } := by
  rw [doAMO_inRam hdev hsz htrap funct3 3#5 rd rs1 rs2 hal hin]
  simp only [amoTail, amoSwitch, hok, checkInvalidate_eq, Bool.false_eq_true, if_false]

end

/-- What an operation on RAM does to the bus, when its entry is `e`: a trap leaves the bus alone. -/
def BusEffect (m m' : Machine c) (e : LogEntry c) : Prop :=
  m'.cpu.trap = true ∧ m'.bus = m.bus ∨ m'.cpu.trap = false ∧
    match e with
    | .lr addr size => m'.bus = busReservationCreate m.bus addr size
    | .sc _ _ => m'.bus = dropReservation m.bus
    | .write addr size => m'.bus = busWriteInvalidate m.bus addr size
    | .reset => m'.bus = dropReservation m.bus

theorem writeMem_busEffect (hdev : MainDevices ramSize m.bus) (hsz : ramSize ≤ ramSizeMax)
    (htrap : m.cpu.trap = false) {addr : Addr c} (buf : List Byte)
    (h : InRam ramSize addr buf.length) :
    BusEffect m (writeMem m addr buf) (.write addr buf.length) := by
  rw [writeMem_inRam hdev hsz htrap h]
  exact Or.inr ⟨htrap, rfl⟩

theorem RamOp.exec_busEffect (hdev : MainDevices ramSize m.bus) (hsz : ramSize ≤ ramSizeMax)
    {op : RamOp c} (hop : op.OnRam ramSize m) {e : LogEntry c} (he : op.entry m = some e) :
    BusEffect m (op.exec m) e := by
  have hmisaligned : ∀ (funct3 : BitVec 3) (funct5 : BitVec 5) (rd rs1 rs2 : Reg),
      (amoAddr m rs1).toNat &&& (amoSize c funct3 - 1) ≠ 0 →
      BusEffect m (doAMO m funct3 funct5 rd rs1 rs2) e := by
    intro funct3 funct5 rd rs1 rs2 hal
    rw [doAMO_misaligned funct3 funct5 rd rs1 rs2 hal]
    exact Or.inl ⟨rfl, rfl⟩
  have hill : ∀ cause, BusEffect m { m with cpu := trap m.cpu cause } e :=
    fun _ => Or.inl ⟨rfl, rfl⟩
  obtain ⟨hwf, hram⟩ := hop
  rw [he] at hram
  cases op with
  | lr funct3 rd rs1 =>
      obtain rfl := Option.some.inj he
      obtain ⟨htrap, hin⟩ := hram
      by_cases hal : (amoAddr m rs1).toNat &&& (amoSize c funct3 - 1) = 0
      · rw [RamOp.exec, doLR_inRam hdev hsz htrap funct3 rd rs1 hal hin]
        exact Or.inr ⟨(writeReg_trap m.cpu rd _).trans htrap, rfl⟩
      · exact hmisaligned funct3 2#5 rd rs1 0#5 hal
  | sc funct3 rd rs1 rs2 =>
      obtain rfl := Option.some.inj he
      obtain ⟨htrap, hin⟩ := hram
      by_cases hal : (amoAddr m rs1).toNat &&& (amoSize c funct3 - 1) = 0
      · refine Or.inr ?_
        cases hok : (busReservationCheckInvalidate m.bus (amoAddr m rs1) (amoSize c funct3)).2 with
        | true =>
            rw [RamOp.exec, doSC_success hdev hsz htrap funct3 rd rs1 rs2 hal hin hok]
            exact ⟨(writeReg_trap m.cpu rd _).trans htrap, rfl⟩
        | false =>
            rw [RamOp.exec, doSC_failure hdev hsz htrap funct3 rd rs1 rs2 hal hin hok]
            exact ⟨(writeReg_trap m.cpu rd _).trans htrap, rfl⟩
      · exact hmisaligned funct3 3#5 rd rs1 rs2 hal
  | amo funct3 funct5 rd rs1 rs2 =>
      obtain rfl := Option.some.inj he
      obtain ⟨htrap, hin⟩ := hram
      have hrmw : funct5 ∈ rmwFunct5 := of_decide_eq_true hwf
      by_cases hal : (amoAddr m rs1).toNat &&& (amoSize c funct3 - 1) = 0
      · obtain ⟨res, hres⟩ :=
          amoOp_rmw (amoRs2Val m funct3 rs2) (amoOldVal m funct3 rs1) hrmw
        rw [RamOp.exec, doRMW_inRam hdev hsz htrap funct3 funct5 rd rs1 rs2 hal hin hres]
        exact Or.inr ⟨(writeReg_trap m.cpu rd _).trans htrap, rfl⟩
      · exact hmisaligned funct3 funct5 rd rs1 rs2 hal
  | store funct3 simm rs1 rs2 =>
      obtain rfl := Option.some.inj he
      obtain ⟨htrap, hin⟩ := hram
      simp only [RamOp.exec, doSTORE]
      split
      · exact hill .instIll
      · have hw := writeMem_busEffect hdev hsz htrap
          (toBytes (1 <<< funct3.toNat) (readReg m.cpu rs2)) (by rw [toBytes_length]; exact hin)
        rw [toBytes_length] at hw
        exact hw
  | cboZero rs1 =>
      obtain rfl := Option.some.inj he
      obtain ⟨htrap, hin⟩ := hram
      simp only [RamOp.exec, doMISCMEM, if_true]
      split
      · exact hill .instIll
      · split
        · exact hill .instIll
        · have hw := writeMem_busEffect hdev hsz htrap (List.replicate dcacheLineSize 0#8)
            (by rw [List.length_replicate]; exact hin)
          rw [List.length_replicate] at hw
          exact hw
  | reset mode start =>
      obtain rfl := Option.some.inj he
      refine Or.inr ⟨?_, ?_⟩
      · exact writePC_trap _ start
      · exact checkInvalidate_eq m.bus 0#_ 0
  | other m' => cases he

end

/-! ## Runs -/

/-- CBO.ZERO has the permission of the modes above. -/
def cboPermitted (s : Cpu c) : Bool :=
  !(s.mode < .machine && s.csr.menvcfg &&& menvcfgCbzeMask == 0#_)
    && !(s.mode < .supervisor && s.csr.senvcfg &&& senvcfgCbzeMask == 0#_)

/-- The bytes that an operation other than a store-conditional gives to `bus_write`: none where it
traps, which a store too wide for the registers, a misaligned atomic and a CBO.ZERO without
permission do. -/
def RamOp.busWrite (m : Machine c) : RamOp c → Option (Addr c × Nat)
  | .amo funct3 _ _ rs1 _ =>
      if (amoAddr m rs1).toNat &&& (amoSize c funct3 - 1) ≠ 0 then none
      else some (amoAddr m rs1, amoSize c funct3)
  | .store funct3 simm rs1 _ =>
      if c.wordBytes < 1 <<< funct3.toNat then none
      else
        let offset : Addr c := signExtend (simm.setWidth _) 11
        some ((readReg m.cpu rs1 + offset.setWidth _).setWidth _, 1 <<< funct3.toNat)
  | .cboZero rs1 =>
      let mask : Addr c := ~~~BitVec.ofNat _ (dcacheLineSize - 1)
      if cboPermitted m.cpu then
        some ((readReg m.cpu rs1 &&& mask.setWidth _).setWidth _, dcacheLineSize)
      else none
  | _ => none

/-- The write of an operation, if it is made under a reservation, lies inside the reserved bytes or
outside them. -/
def NoStraddle (m : Machine c) (op : RamOp c) : Prop :=
  match op.busWrite m with
  | some (addr, size) =>
      m.bus.reservation.valid = true →
        RangeInside addr size m.bus.reservation.addr m.bus.reservation.size ∨
          RangesDisjoint addr size m.bus.reservation.addr m.bus.reservation.size
  | none => True

instance (m : Machine c) (op : RamOp c) : Decidable (NoStraddle m op) := by
  unfold NoStraddle
  split <;> infer_instance

/-- An operation that completes has made the write of its entry. -/
theorem RamOp.busWrite_of_entry {m : Machine c} {op : RamOp c} {addr : Addr c} {size : Nat}
    (he : op.entry m = some (.write addr size)) (htrap : (op.exec m).cpu.trap = false) :
    op.busWrite m = some (addr, size) := by
  cases op with
  | lr | sc | reset => cases Option.some.inj he
  | other => cases he
  | amo funct3 funct5 rd rs1 rs2 =>
      obtain ⟨rfl, rfl⟩ := LogEntry.write.inj (Option.some.inj he)
      refine if_neg ?_
      intro hal
      rw [RamOp.exec, doAMO_misaligned funct3 funct5 rd rs1 rs2 hal] at htrap
      cases htrap
  | store funct3 simm rs1 rs2 =>
      obtain ⟨rfl, rfl⟩ := LogEntry.write.inj (Option.some.inj he)
      refine if_neg ?_
      intro hsize
      rw [RamOp.exec, doSTORE, if_pos hsize] at htrap
      cases htrap
  | cboZero rs1 =>
      obtain ⟨rfl, rfl⟩ := LogEntry.write.inj (Option.some.inj he)
      refine if_pos ?_
      simp only [RamOp.exec, doMISCMEM, if_true] at htrap
      split at htrap
      · cases htrap
      · split at htrap
        · cases htrap
        · rename_i hmachine hsupervisor
          simp only [cboPermitted, hmachine, hsupervisor, Bool.not_false, Bool.and_self]

/-- A valid reservation lies in RAM, and the log says that it stands. -/
structure Reserved (ramSize : Nat) (s : Logged c) : Prop where
  devices : MainDevices ramSize s.machine.bus
  inRam : s.machine.bus.reservation.valid = true →
    InRam ramSize s.machine.bus.reservation.addr s.machine.bus.reservation.size
  stands : s.machine.bus.reservation.valid = true →
    Stands s.log s.machine.bus.reservation.addr s.machine.bus.reservation.size

namespace Reserved

variable {ramSize : Nat} {s : Logged c}

/-- Without a reservation there is nothing to keep. -/
theorem of_invalid (hdev : MainDevices ramSize s.machine.bus)
    (hv : s.machine.bus.reservation.valid = false) : Reserved ramSize s := by
  refine ⟨hdev, ?_, ?_⟩
  · intro h
    rw [hv] at h
    cases h
  · intro h
    rw [hv] at h
    cases h

/-- Where neither the bus nor the log changes. -/
theorem of_same (h : Reserved ramSize s) {m' : Machine c} (hbus : m'.bus = s.machine.bus) :
    Reserved ramSize ⟨m', s.log⟩ := by
  refine ⟨?_, ?_, ?_⟩
  all_goals simp only [hbus]
  · exact h.devices
  · exact h.inRam
  · exact h.stands

/-- A write inside the reserved bytes drops the reservation, and one outside leaves it standing. -/
theorem write (h : Reserved ramSize s) (hsz : ramSize ≤ ramSizeMax) {addr : Addr c} {size : Nat}
    (hram : InRam ramSize addr size)
    (hmeets : s.machine.bus.reservation.valid = true →
      RangeInside addr size s.machine.bus.reservation.addr s.machine.bus.reservation.size ∨
        RangesDisjoint addr size s.machine.bus.reservation.addr s.machine.bus.reservation.size)
    {m' : Machine c} (hbus : m'.bus = busWriteInvalidate s.machine.bus addr size) :
    Reserved ramSize ⟨m', s.log ++ [.write addr size]⟩ := by
  have hdev' : MainDevices ramSize m'.bus := by
    rw [MainDevices, hbus, busWriteInvalidate_devices]
    exact h.devices
  by_cases hv : m'.bus.reservation.valid = true
  · rw [hbus] at hv
    obtain ⟨hsame, hvalid, hout⟩ := writeInvalidate_valid hv
    rw [hsame] at hbus
    have hdisj : RangesDisjoint addr size s.machine.bus.reservation.addr
        s.machine.bus.reservation.size := by
      rcases hmeets hvalid with hin | hdisj
      · -- a write inside the reservation would have dropped it
        have hinc := (includes_iff_inside (hram.lt hsz) ((h.inRam hvalid).lt hsz)).mpr hin
        rw [hinc] at hout
        cases hout
      · exact hdisj
    refine ⟨hdev', ?_, ?_⟩
    all_goals simp only [hbus]
    · exact h.inRam
    · exact fun _ => (h.stands hvalid).write hdisj
  · exact of_invalid hdev' (by simpa using hv)

/-- Reset drops the reservation. -/
theorem init {m : Machine c} (hdev : MainDevices ramSize m.bus) (mode : PrivMode)
    (start : Addr c) : Reserved ramSize ⟨rvReset m mode start, []⟩ := by
  have hbus : (rvReset m mode start).bus = dropReservation m.bus := checkInvalidate_eq m.bus 0#_ 0
  refine of_invalid ?_ ?_
  · rw [hbus]
    exact hdev
  · rw [hbus]
    rfl

/-- What one operation preserves. -/
theorem step (hsz : ramSize ≤ ramSizeMax) {op : RamOp c} (h : Reserved ramSize s)
    (hop : op.OnRam ramSize s.machine) (hmeets : NoStraddle s.machine op) :
    Reserved ramSize (s.step op) := by
  cases he : op.entry s.machine with
  | none =>
      have hbus : (op.exec s.machine).bus = s.machine.bus := by
        cases op with
        | other m' => rfl
        | _ => cases he
      have hlog : op.logged s.machine = [] := by simp [RamOp.logged, he]
      rw [Logged.step, hlog, List.append_nil]
      exact h.of_same hbus
  | some e =>
      rcases RamOp.exec_busEffect h.devices hsz hop he with ⟨htrap, hbus⟩ | ⟨htrap, hbus⟩
      · -- a trap: neither the bus nor the log changes
        have hlog : op.logged s.machine = [] := by simp [RamOp.logged, htrap]
        rw [Logged.step, hlog, List.append_nil]
        exact h.of_same hbus
      · have hlog : op.logged s.machine = [e] := by simp [RamOp.logged, htrap, he]
        have hstep : s.step op = ⟨op.exec s.machine, s.log ++ [e]⟩ := by
          rw [Logged.step, hlog]
        rw [hstep]
        have hram := hop.2
        simp only [he, Option.bind_some] at hram
        cases e with
        | lr addr size =>
            refine ⟨?_, ?_, ?_⟩
            all_goals simp only [hbus]
            · exact h.devices
            · exact fun _ => hram.2
            · exact fun _ => stands_lr s.log addr size
        | sc addr size =>
            refine of_invalid ?_ ?_
            all_goals simp only [hbus]
            · exact h.devices
            · rfl
        | reset =>
            refine of_invalid ?_ ?_
            all_goals simp only [hbus]
            · exact h.devices
            · rfl
        | write addr size =>
            simp only [NoStraddle, RamOp.busWrite_of_entry he htrap] at hmeets
            exact h.write hsz hram.2 hmeets hbus

end Reserved

/-- The store-conditional of a logged machine does what it promises: it succeeds only when the log
justifies it, storing its bytes and returning 0; otherwise it stores nothing and returns 1. Either
way the reservation is gone. -/
def ScCorrect (s : Logged c) (funct3 : BitVec 3) (rd rs1 rs2 : Reg) : Prop :=
  let m := s.machine
  let addr := amoAddr m rs1
  let size := amoSize c funct3
  let m' := doAMO m funct3 3#5 rd rs1 rs2
  m'.bus.reservation.valid = false ∧
    (ScJustified s.log addr size ∧
        m' = { m with
          bus := dropReservation m.bus
          ram := memWrite m.ram (ramOffset addr) (toBytes size (readReg m.cpu rs2))
          cpu := writeReg m.cpu rd 0#_ } ∨
      m' = { m with bus := dropReservation m.bus, cpu := writeReg m.cpu rd 1#_ })

/-- **Store-conditional.** In every run on RAM from reset, with any stores, atomics, cache-block
operations, resets and other activity, in which no write made under a reservation straddles the
end of the reserved bytes, a store-conditional that completes is correct. -/
theorem sc_correct_run {ramSize : Nat} (hsz : ramSize ≤ ramSizeMax) (m : Machine c)
    (hdev : MainDevices ramSize m.bus) (mode : PrivMode) (start : Addr c) (ops : List (RamOp c))
    (hrun : Run.Along Logged.step
      (fun s op => op.OnRam ramSize s.machine ∧ NoStraddle s.machine op)
      ⟨rvReset m mode start, []⟩ ops)
    (funct3 : BitVec 3) (rd rs1 rs2 : Reg) :
    let s := Run.run Logged.step ⟨rvReset m mode start, []⟩ ops
    (RamOp.sc funct3 rd rs1 rs2).OnRam ramSize s.machine →
      (doAMO s.machine funct3 3#5 rd rs1 rs2).cpu.trap = false →
      ScCorrect s funct3 rd rs1 rs2 := by
  intro s hop hdone
  have hinv : Reserved ramSize s := by
    refine Run.invariant ?_ ops _ (Reserved.init hdev mode start) hrun
    rintro s op hs ⟨hop, hmeets⟩
    exact hs.step hsz hop hmeets
  obtain ⟨-, htrap, hin⟩ := hop
  by_cases hal : (amoAddr s.machine rs1).toNat &&& (amoSize c funct3 - 1) = 0
  swap
  · rw [doAMO_misaligned funct3 3#5 rd rs1 rs2 hal] at hdone
    cases hdone
  cases hok : (busReservationCheckInvalidate s.machine.bus (amoAddr s.machine rs1)
      (amoSize c funct3)).2 with
  | false =>
      have heq := doSC_failure hinv.devices hsz htrap funct3 rd rs1 rs2 hal hin hok
      simp only [ScCorrect, heq]
      exact ⟨rfl, Or.inr trivial⟩
  | true =>
      have heq := doSC_success hinv.devices hsz htrap funct3 rd rs1 rs2 hal hin hok
      have hcheck : s.machine.bus.reservation.valid = true ∧
          includes s.machine.bus.reservation.addr (cpuSize s.machine.bus.reservation.size)
            (amoAddr s.machine rs1) (cpuSize (amoSize c funct3)) = true := by
        unfold busReservationCheckInvalidate at hok
        split at hok
        · exact ⟨by assumption, hok⟩
        · cases hok
      have hinside := (includes_iff_inside (hin.lt hsz) ((hinv.inRam hcheck.1).lt hsz)).mp hcheck.2
      simp only [ScCorrect, heq]
      exact ⟨rfl, Or.inl ⟨⟨_, _, hinv.stands hcheck.1, hinside⟩, trivial⟩⟩

/-- A 64-bit machine of 1 MB whose x5 points at the first byte of RAM. -/
def scMachine : Machine .rv64 :=
  let m := vmInit (mainBus .rv64 0x100000) ⟨fun _ => 0#8⟩ false
  { m with cpu := { m.cpu with regs := fun r => if r = 5#5 then 0x80000000#64 else 0#64 } }

/-- LR.W, a store to the next word, and SC.W: the store-conditional succeeds. -/
theorem sc_correct_run_word :
    ScCorrect
      (Run.run Logged.step ⟨rvReset scMachine .machine 0x80000000#64, []⟩
        [.lr 2#3 7#5 5#5, .store 2#3 4#32 5#5 6#5])
      2#3 8#5 5#5 6#5 :=
  @sc_correct_run .rv64 0x100000 (by decide) scMachine rfl .machine 0x80000000#64
    [.lr 2#3 7#5 5#5, .store 2#3 4#32 5#5 6#5] (by decide +kernel) 2#3 8#5 5#5 6#5
    (by decide +kernel) (by decide +kernel)

/-- LR.W, SD over the reserved word, and SC.W: the store-conditional succeeds although the reserved
bytes were written since. -/
theorem covering_store_keeps_reservation :
    let s := Run.run Logged.step ⟨rvReset scMachine .machine 0x80000000#64, []⟩
      [.lr 2#3 7#5 5#5, .store 3#3 0#32 5#5 6#5]
    Run.Along Logged.step (fun s op => op.OnRam 0x100000 s.machine)
        ⟨rvReset scMachine .machine 0x80000000#64, []⟩ [.lr 2#3 7#5 5#5, .store 3#3 0#32 5#5 6#5] ∧
      (RamOp.sc 2#3 8#5 5#5 6#5).OnRam 0x100000 s.machine ∧
      (doAMO s.machine 2#3 3#5 8#5 5#5 6#5).cpu.trap = false ∧
      ¬ ScCorrect s 2#3 8#5 5#5 6#5 := by
  intro s
  refine ⟨by decide +kernel, by decide +kernel, by decide +kernel, ?_⟩
  have hlog : s.log = [.lr 0x80000000#64 4, .write 0x80000000#64 8] := by decide +kernel
  rintro ⟨-, ⟨⟨r, q, ⟨pre, post, heq, hpost⟩, -⟩, -⟩ | hfail⟩
  · -- the only reservation of the log is followed by the store
    rw [hlog] at heq
    rcases pre with _ | ⟨e, _ | ⟨e', _ | ⟨e'', pre⟩⟩⟩
    · simp only [List.nil_append, List.cons.injEq, LogEntry.lr.injEq] at heq
      obtain ⟨⟨rfl, rfl⟩, rfl⟩ := heq
      obtain ⟨a, n, he, hd⟩ := hpost _ (List.mem_singleton_self _)
      obtain ⟨rfl, rfl⟩ := LogEntry.write.inj he
      exact absurd hd (by decide)
    · simp at heq
    · simp at heq
    · simp at heq
  · have hrd := congrArg (fun m => m.cpu.regs 8#5) hfail
    exact absurd hrd (by decide +kernel)

end RV640
