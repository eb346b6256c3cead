import RV640.Isa.Semantics

set_option autoImplicit false

/-! # A hart at a terminal

The architecture with what a program sees of the world outside: a UART, whose receiver queues what
is typed and whose transmitter prints, and a firmware that serves calls. An access of a register of
the UART is the access of one byte. Not described are a read of the receiver while nothing is
queued, the other registers of the UART and the other calls.
-/

namespace Riscv

open Bits

/-- A platform with a UART at an address, the characters that it queues, and whether a firmware
serves the calls. -/
structure Board extends Platform where
  uart : Nat
  queue : Nat
  firmware : Bool

/-- A hart, the characters that were typed and not read yet, and those that were printed. -/
structure Station (w a : Nat) where
  hart : Hart w a
  input : List Byte
  output : List Byte

/-- A read of a register of the UART, with what it leaves of the input: the receiver returns the
oldest character, the line status tells whether there is one and that the transmitter is idle. -/
def uartRead (reg : Nat) (input : List Byte) : Option (Byte × List Byte) :=
  match reg, input with
  | 0, x :: rest => some (x, rest)
  | 5, [] => some (0x60#8, [])
  | 5, x :: rest => some (0x61#8, x :: rest)
  | _, _ => none

/-- The extensions of the firmware that a program may probe for: base, timer and debug console. -/
def extensionIds : List Nat := [0x10, 0x54494D45, 0x4442434E]

section

variable {w a : Nat}

/-- What a call of the firmware returns and prints: the probe for an extension that there is, and
the write of a range of memory to the debug console. -/
def Hart.called (p : Platform) (s : Hart w a) : Option (BitVec w × List Byte) :=
  let a0 := s.regs.val 10#5
  let a1 := s.regs.val 11#5
  let eid := (s.regs.val 17#5).toNat
  let fid := (s.regs.val 16#5).toNat
  if eid = 0x10 ∧ fid = 3 ∧ a0.toNat ∈ extensionIds then some (1#w, [])
  else if eid = 0x4442434E ∧ fid = 0 ∧ s.regs.val 12#5 = 0#w ∧ p.Holds a1.toNat a0.toNat then
    some (a0, Bytes.readAt s.mem a1.toNat a0.toNat)
  else none

namespace Station

/-- A character that is typed. It is lost when the queue is full. -/
def key (n : Nat) (s : Station w a) (ch : Byte) : Station w a :=
  if s.input.length < n then { s with input := s.input ++ [ch] } else s

/-- An access of the UART. -/
def io (b : Board) (size : Nat) (s : Station w a) : Instr → Option (Station w a)
  | .base (.load funct3 rd rs1 imm) =>
      let addr := (s.hart.addr rs1 imm).toNat
      if accessSize funct3 = 1 ∧ b.uart ≤ addr then
        (uartRead (addr - b.uart) s.input).map fun r =>
          { s with
            hart := s.hart.write rd (extended (funct3 &&& 4#3 == 0#3) [r.1]) size
            input := r.2 }
      else none
  | .base (.store 0#3 rs1 rs2 imm) =>
      if (s.hart.addr rs1 imm).toNat = b.uart then
        some { s with
          hart := s.hart.next size
          output := s.output ++ [(s.hart.regs.val rs2).setWidth 8] }
      else none
  | _ => none

/-- An instruction of `size` bytes. -/
def exec (b : Board) (size : Nat) (s : Station w a) (i : Instr) : Option (Station w a) :=
  match i.exec b.toPlatform size s.hart with
  | some hart => some { s with hart := hart }
  | none => s.io b size i

/-- ECALL: the error and the value of the call are returned in `a0` and `a1`. -/
def call (b : Board) (s : Station w a) : Option (Station w a) :=
  if b.firmware then
    (s.hart.called b.toPlatform).map fun r =>
      { s with
        hart := { s.hart.next 4 with regs := (s.hart.regs.set 10#5 0#w).set 11#5 r.1 }
        output := s.output ++ r.2 }
  else none

/-- What a hart at a terminal does next: an instruction, or an ECALL where there is none. -/
def Step (b : Board) (s : Station w a) (i : Option Instr) (s' : Station w a) : Prop :=
  match i with
  | some i => ∃ size, s.hart.AtPC b.toPlatform i size ∧ s.exec b size i = some s'
  | none => s.hart.Fresh b.toPlatform 4 ∧
      ofBytes (Bytes.readAt s.hart.mem s.hart.pc.toNat 4) = 0x73#32 ∧ s.call b = some s'

/-- A step of the hart is one of the station. -/
theorem Step.of_hart {b : Board} {s : Station w a} {i : Instr} {hart : Hart w a}
    (h : s.hart.Step b.toPlatform i hart) : s.Step b (some i) { s with hart := hart } := by
  obtain ⟨size, hat, hexec⟩ := h
  refine ⟨size, hat, ?_⟩
  simp only [exec, hexec]

/-- What is typed during a call does not matter to it. -/
theorem call_key {b : Board} {s s' : Station w a} (h : s.call b = some s') (n : Nat) (ch : Byte) :
    (s.key n ch).call b = some (s'.key n ch) := by
  unfold call at h
  split at h
  · rename_i hf
    obtain ⟨r, hr, rfl⟩ := Option.map_eq_some_iff.mp h
    unfold key
    split
    · simp only [call, hf, if_true, hr, Option.map_some]
    · simp only [call, hf, if_true, hr, Option.map_some]
  · cases h

end Station

/-- What happens at a terminal. -/
inductive Happening where
  | step
  | key (ch : Byte)

/-- A session: the hart takes steps, whose instructions meet a condition, and characters are typed
between them. -/
inductive Session (b : Board) (Q : Hart w a → Instr → Prop) :
    List Happening → Station w a → Station w a → Prop where
  | nil (s : Station w a) : Session b Q [] s s
  | step {hs : List Happening} {s s' s'' : Station w a} {i : Option Instr} (step : s.Step b i s')
      (cond : ∀ j, i = some j → Q s.hart j) (rest : Session b Q hs s' s'') :
      Session b Q (.step :: hs) s s''
  | key {hs : List Happening} {s s'' : Station w a} (ch : Byte)
      (rest : Session b Q hs (s.key b.queue ch) s'') : Session b Q (.key ch :: hs) s s''

/-- A session can be left anywhere. -/
theorem Session.split {b : Board} {Q : Hart w a → Instr → Prop} {hs hs' : List Happening}
    {s s'' : Station w a} (h : Session b Q (hs ++ hs') s s'') :
    ∃ s', Session b Q hs s s' ∧ Session b Q hs' s' s'' := by
  induction hs generalizing s with
  | nil => exact ⟨s, .nil s, h⟩
  | cons happening hs ih =>
      cases h with
      | step step cond rest =>
          obtain ⟨s', hfirst, hrest⟩ := ih rest
          exact ⟨s', .step step cond hfirst, hrest⟩
      | key ch rest =>
          obtain ⟨s', hfirst, hrest⟩ := ih rest
          exact ⟨s', .key ch hfirst, hrest⟩

end

end Riscv
