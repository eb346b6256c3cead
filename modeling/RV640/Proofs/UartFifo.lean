import RV640.Lib.Fifo
import RV640.Proofs.UartInterrupt

set_option autoImplicit false

/-! # The input ring of the UART is a bounded queue

The host pushes characters, the guest reads them at offset 0. The ring keeps two indices and a
count; the register at offset 0 is banked by DLAB, and an access of several bytes reaches it with
its first byte only.
-/

namespace RV640

open Bits

variable {c : Cfg}

/-! ## The ring -/

/-- The fields of the ring, with its cells as a function. -/
def RingBuffer.ring (r : RingBuffer) : RingQueue Byte ns16550aBufSize :=
  { cells := fun i => r.buf[i]?.getD 0#8, rd := r.rdIdx, wr := r.wrIdx, len := r.len }

/-- The characters in the ring, oldest first. -/
def Ns16550a.queued (self : Ns16550a) : List Byte := self.ringBuffer.ring.contents

namespace Ns16550a

theorem store_ring (self : Ns16550a) (ch : Byte) (h : self.ringBuffer.ring.Ok) :
    (self.store ch).ringBuffer.ring = self.ringBuffer.ring.push ch := by
  have hwr : self.ringBuffer.wrIdx < ns16550aBufSize := h.wr_lt
  have hcells : (fun i => (self.ringBuffer.buf.setIfInBounds self.ringBuffer.wrIdx ch)[i]?.getD 0#8)
      = Function.update (fun i => self.ringBuffer.buf[i]?.getD 0#8) self.ringBuffer.wrIdx ch := by
    funext i
    by_cases hi : i = self.ringBuffer.wrIdx
    · subst hi
      rw [Function.update_self, Vector.getElem?_setIfInBounds_self_of_lt hwr]
      rfl
    · rw [Function.update_of_ne hi, Vector.getElem?_setIfInBounds_ne (Ne.symm hi)]
  simp only [store, RingBuffer.ring, RingQueue.push, hcells, incBufIdx]

/-- A pop from a ring that is not empty. -/
theorem popChar_ring (self : Ns16550a) (hlen : self.ringBuffer.len ≠ 0) :
    self.popChar.1.ringBuffer.ring = self.ringBuffer.ring.pop
      ∧ self.popChar.2 = self.ringBuffer.ring.cells self.ringBuffer.ring.rd := by
  simp only [popChar, if_neg hlen]
  exact ⟨rfl, rfl⟩

/-! ## Accesses that leave the ring alone -/

/-- A read consumes nothing unless it reaches the receiver register of a ring with data. -/
theorem readByte_self (self : Ns16550a) (addr : Nat) (old : Byte)
    (h : addr ≠ 0 ∨ self.dlab = true ∨ self.ringBuffer.len = 0) :
    (self.readByte addr old).1 = self := by
  unfold readByte
  split
  · rcases h with h | h | h
    · exact absurd rfl h
    · rw [if_pos h]
    · split
      · rfl
      · rw [popChar, if_pos h]
  · split <;> rfl
  · rfl
  · rfl
  · rfl
  · rfl

/-- Behind offset 0 a read changes nothing at all. -/
theorem cbRead_self (self : Ns16550a) (addr : Nat) (buf : List Byte) (h : addr ≠ 0) :
    (self.cbRead addr buf).1 = self := by
  induction buf generalizing self addr with
  | nil => rfl
  | cons b bs ih =>
      show ((self.readByte addr b).1.cbRead (addr + 1) bs).1 = self
      rw [self.readByte_self addr b (Or.inl h), ih _ _ (Nat.succ_ne_zero addr)]

/-- An access from offset 0 changes the UART with its first byte. -/
theorem cbRead_first (self : Ns16550a) (b : Byte) (bs : List Byte) :
    (self.cbRead 0 (b :: bs)).1 = (self.readByte 0 b).1
      ∧ (self.cbRead 0 (b :: bs)).2.head? = some (self.readByte 0 b).2 :=
  ⟨(self.readByte 0 b).1.cbRead_self 1 bs one_ne_zero, rfl⟩

theorem irq_uart (m : Machine c) : (irq m).uart = m.uart := by
  unfold irq
  split <;> rfl

theorem writeByte_ring (m : Machine c) (addr : Nat) (b : Byte) :
    (writeByte m addr b).uart.ringBuffer = m.uart.ringBuffer := by
  unfold writeByte
  split
  · split <;> rfl
  · split
    · rfl
    · rw [irq_uart]
  · rfl
  · rfl

theorem cbWrite_ring (m : Machine c) (addr : Nat) (buf : List Byte) :
    (cbWrite m addr buf).uart.ringBuffer = m.uart.ringBuffer := by
  induction buf generalizing m addr with
  | nil => rfl
  | cons b bs ih => exact (ih (writeByte m addr b) (addr + 1)).trans (writeByte_ring m addr b)

/-- `NS16550A_LSR_DR` of the Line Status Register. -/
theorem lineStatus_dr (self : Ns16550a) :
    self.lineStatus.getLsbD 0 = decide (self.ringBuffer.len ≠ 0) := by
  unfold lineStatus
  by_cases hlen : self.ringBuffer.len = 0
  · simp [hlen]
  · simp [hlen]

end Ns16550a

/-! ## Histories

The operations are those of `UartOp`: pushes, and accesses of any size from any offset. -/

/-- The operation reads offset 0 with DLAB clear while the Line Status Register shows Data Ready. -/
def Ns16550a.receives (self : Ns16550a) : UartOp → Bool
  | .uartRead 0 (_ :: _) => !self.dlab && self.lineStatus.getLsbD 0
  | _ => false

theorem Ns16550a.receives_iff (self : Ns16550a) (b : Byte) (bs : List Byte) :
    self.receives (.uartRead 0 (b :: bs)) = true
      ↔ self.dlab = false ∧ self.ringBuffer.len ≠ 0 := by
  rw [receives, lineStatus_dr, Bool.and_eq_true, Bool.not_eq_true', decide_eq_true_eq]

/-- The byte of a push that was not refused. -/
def acceptedBy (m : Machine c) : UartOp → List Byte
  | .push ch => if (ns16550Push m ch).2 then [ch] else []
  | _ => []

/-- The byte a read of the receiver register returned. -/
def receivedBy (m : Machine c) (op : UartOp) : List Byte :=
  match op with
  | .uartRead addr buf =>
      if m.uart.receives (.uartRead addr buf) then (devRead m .uart addr buf).2.head?.toList else []
  | _ => []

/-- The accepted bytes of a history, in order. -/
def acceptedBytes (m : Machine c) : List UartOp → List Byte
  | [] => []
  | op :: ops => acceptedBy m op ++ acceptedBytes (uartStep m op) ops

/-- The received bytes of a history, in order. -/
def receivedBytes (m : Machine c) : List UartOp → List Byte
  | [] => []
  | op :: ops => receivedBy m op ++ receivedBytes (uartStep m op) ops

/-! ## The simulation -/

/-- The operation of the queue that an operation of the UART is. -/
def Ns16550a.queueOp (self : Ns16550a) : UartOp → Fifo.Op Byte
  | .push ch => .offer ch
  | op => if self.receives op then .take else .skip

/-- The queue of a UART whose ring is in order. -/
def Ns16550a.fifo (self : Ns16550a) (h : self.ringBuffer.ring.Ok) : Fifo Byte ns16550aBufSize :=
  self.ringBuffer.ring.toFifo h

/-- An operation of the UART against one of the queue `q`: what it accepts, what it returns and
what it leaves. -/
structure UartSimulates (m : Machine c) (op : UartOp) (q : Fifo Byte ns16550aBufSize)
    (o : Fifo.Op Byte) : Prop where
  ok : (uartStep m op).uart.ringBuffer.ring.Ok
  queued : (uartStep m op).uart.queued = (q.step o).items
  accepted : acceptedBy m op = q.accepted o
  received : receivedBy m op = q.delivered o

/-- An operation that neither pushes nor receives. -/
theorem uartSimulates_skip {m : Machine c} {op : UartOp} (h : m.uart.ringBuffer.ring.Ok)
    (hring : (uartStep m op).uart.ringBuffer = m.uart.ringBuffer)
    (hacc : acceptedBy m op = []) (hrec : receivedBy m op = []) :
    UartSimulates m op (m.uart.fifo h) .skip where
  ok := by rw [hring]; exact h
  queued := congrArg (fun r => RingQueue.contents (RingBuffer.ring r)) hring
  accepted := hacc
  received := hrec

theorem push_simulates (m : Machine c) (ch : Byte) (h : m.uart.ringBuffer.ring.Ok) :
    UartSimulates m (.push ch) (m.uart.fifo h) (.offer ch) := by
  have hlen : (m.uart.fifo h).items.length = m.uart.ringBuffer.len := RingQueue.contents_length _
  by_cases hfull : ns16550aBufSize ≤ m.uart.ringBuffer.len
  · have hroom : ¬ (m.uart.fifo h).items.length < ns16550aBufSize := by omega
    have hpush : ns16550Push m ch = (m, false) := by rw [ns16550Push, if_pos hfull]
    refine ⟨?_, ?_, ?_, rfl⟩
    · simpa only [uartStep, hpush] using h
    · simp only [uartStep, hpush, Fifo.step, Fifo.itemsAfter, if_neg hroom]
      rfl
    · simp only [acceptedBy, hpush, Fifo.accepted, if_neg hroom, Bool.false_eq_true, if_false]
  · have hlt : m.uart.ringBuffer.ring.len < ns16550aBufSize := not_le.mp hfull
    have hroom : (m.uart.fifo h).items.length < ns16550aBufSize := by rw [hlen]; exact hlt
    have hpush : ns16550Push m ch
        = (Ns16550a.irq { m with uart := m.uart.store ch }, true) := by
      rw [ns16550Push, if_neg hfull]
    have hring : (uartStep m (.push ch)).uart.ringBuffer.ring
        = m.uart.ringBuffer.ring.push ch := by
      simp only [uartStep, hpush, Ns16550a.irq_uart]
      exact m.uart.store_ring ch h
    refine ⟨?_, ?_, ?_, rfl⟩
    · rw [hring]
      exact h.push hlt ch
    · rw [Ns16550a.queued, hring, RingQueue.contents_push h hlt]
      simp only [Fifo.step, Fifo.itemsAfter, if_pos hroom]
      rfl
    · simp only [acceptedBy, hpush, Fifo.accepted, if_pos hroom, if_true]

/-- A read that receives takes the oldest character and returns it. -/
theorem receive_simulates (m : Machine c) (b : Byte) (bs : List Byte)
    (h : m.uart.ringBuffer.ring.Ok) (hrec : m.uart.receives (.uartRead 0 (b :: bs)) = true) :
    UartSimulates m (.uartRead 0 (b :: bs)) (m.uart.fifo h) .take := by
  obtain ⟨hdlab, hdr⟩ := (m.uart.receives_iff b bs).mp hrec
  obtain ⟨hfirst, hhead⟩ := m.uart.cbRead_first b bs
  obtain ⟨hring, hbyte⟩ := m.uart.popChar_ring hdr
  have hread : m.uart.readByte 0 b = m.uart.popChar := by
    simp only [Ns16550a.readByte, hdlab, Bool.false_eq_true, if_false]
  have hafter : (uartStep m (.uartRead 0 (b :: bs))).uart.ringBuffer.ring
      = m.uart.ringBuffer.ring.pop := by
    show (m.uart.cbRead 0 (b :: bs)).1.ringBuffer.ring = _
    rw [hfirst, hread, hring]
  have hpos : 0 < m.uart.ringBuffer.ring.len := Nat.pos_of_ne_zero hdr
  have hitems : (m.uart.fifo h).items = m.uart.ringBuffer.ring.cells m.uart.ringBuffer.ring.rd
      :: m.uart.ringBuffer.ring.pop.contents := RingQueue.contents_pop h hpos
  refine ⟨?_, ?_, rfl, ?_⟩
  · rw [hafter]
    exact h.pop hpos
  · rw [Ns16550a.queued, hafter]
    simp only [Fifo.step, Fifo.itemsAfter, hitems, List.tail_cons]
  · simp only [receivedBy, hrec, if_true, Fifo.delivered, hitems, List.head?_cons]
    show (m.uart.cbRead 0 (b :: bs)).2.head?.toList = _
    rw [hhead, hread, hbyte]

/-- Every other read leaves the UART as it was. -/
theorem read_self (m : Machine c) (addr : Nat) (buf : List Byte)
    (hrec : m.uart.receives (.uartRead addr buf) = false) :
    (m.uart.cbRead addr buf).1 = m.uart := by
  by_cases haddr : addr = 0
  · subst haddr
    cases buf with
    | nil => rfl
    | cons b bs =>
        have hself : m.uart.dlab = true ∨ m.uart.ringBuffer.len = 0 := by
          by_cases hdlab : m.uart.dlab = true
          · exact Or.inl hdlab
          · right
            by_contra hlen
            have := (m.uart.receives_iff b bs).mpr ⟨Bool.eq_false_iff.mpr hdlab, hlen⟩
            rw [hrec] at this
            exact Bool.false_ne_true this
        rw [(m.uart.cbRead_first b bs).1, m.uart.readByte_self 0 b (Or.inr hself)]
  · exact m.uart.cbRead_self addr buf haddr

/-- Every operation is its operation of the queue. -/
theorem uartStep_simulates (m : Machine c) (op : UartOp) (h : m.uart.ringBuffer.ring.Ok) :
    UartSimulates m op (m.uart.fifo h) (m.uart.queueOp op) := by
  cases op with
  | push ch => exact push_simulates m ch h
  | uartRead addr buf =>
      simp only [Ns16550a.queueOp]
      cases hrec : m.uart.receives (.uartRead addr buf) with
      | true =>
          -- only a read from offset 0 of at least one byte receives
          rw [if_pos rfl]
          unfold Ns16550a.receives at hrec
          split at hrec
          · rename_i heq
            cases heq
            exact receive_simulates m _ _ h hrec
          · exact absurd hrec Bool.false_ne_true
      | false =>
          rw [if_neg Bool.false_ne_true]
          refine uartSimulates_skip h ?_ rfl ?_
          · exact congrArg Ns16550a.ringBuffer (read_self m addr buf hrec)
          · simp only [receivedBy, hrec, Bool.false_eq_true, if_false]
  | uartWrite addr buf =>
      exact uartSimulates_skip h (Ns16550a.cbWrite_ring m addr buf) rfl rfl
  | plicRead addr buf => exact uartSimulates_skip h rfl rfl rfl
  | plicWrite addr buf => exact uartSimulates_skip h rfl rfl rfl

/-! ## Runs -/

/-- The operations of the queue that a history is. -/
def uartOps (m : Machine c) : List UartOp → List (Fifo.Op Byte)
  | [] => []
  | op :: ops => m.uart.queueOp op :: uartOps (uartStep m op) ops

/-- A history of the UART is a history of its queue: the ring stays in order, and what went in,
what came out and what is left are the same. -/
theorem run_simulates (m : Machine c) (ops : List UartOp) (h : m.uart.ringBuffer.ring.Ok) :
    (Run.run uartStep m ops).uart.ringBuffer.ring.Ok
      ∧ (Run.run uartStep m ops).uart.queued = ((m.uart.fifo h).run (uartOps m ops)).items
      ∧ acceptedBytes m ops = (m.uart.fifo h).inputs (uartOps m ops)
      ∧ receivedBytes m ops = (m.uart.fifo h).outputs (uartOps m ops) := by
  induction ops generalizing m with
  | nil => exact ⟨h, rfl, rfl, rfl⟩
  | cons op ops ih =>
      have hsim := uartStep_simulates m op h
      have hnext : (uartStep m op).uart.fifo hsim.ok = (m.uart.fifo h).step (m.uart.queueOp op) :=
        Fifo.ext hsim.queued
      obtain ⟨hok, hqueued, hacc, hrec⟩ := ih (uartStep m op) hsim.ok
      rw [hnext] at hqueued hacc hrec
      refine ⟨hok, hqueued, ?_, ?_⟩
      · rw [acceptedBytes, hsim.accepted, hacc]
        rfl
      · rw [receivedBytes, hsim.received, hrec]
        rfl

/-- The three fields of the ring, as the C program has them. -/
structure RingIndices (r : RingBuffer) : Prop where
  len_le : r.len ≤ 256
  rd_lt : r.rdIdx < 256
  wr_lt : r.wrIdx < 256
  wr_eq : r.wrIdx = (r.rdIdx + r.len) % 256

theorem RingIndices.of_ok {r : RingBuffer} (h : r.ring.Ok) : RingIndices r :=
  ⟨h.len_le, h.rd_lt, h.wr_lt, h.wr_eq⟩

/-- A push is refused when 256 characters are queued, and then changes nothing. -/
theorem push_refused_iff {m : Machine c} (h : m.uart.ringBuffer.ring.Ok) (ch : Byte) :
    ((ns16550Push m ch).2 = false ↔ m.uart.queued.length = 256)
      ∧ ((ns16550Push m ch).2 = false → (ns16550Push m ch).1 = m) := by
  have hle : m.uart.ringBuffer.len ≤ 256 := h.len_le
  have hlen : m.uart.queued.length = m.uart.ringBuffer.len := RingQueue.contents_length _
  rw [hlen, ns16550Push]
  by_cases hfull : ns16550aBufSize ≤ m.uart.ringBuffer.len
  · have heq : m.uart.ringBuffer.len = 256 := le_antisymm hle hfull
    rw [if_pos hfull]
    exact ⟨iff_of_true rfl heq, fun _ => rfl⟩
  · have hne : m.uart.ringBuffer.len ≠ 256 := fun heq => hfull (le_of_eq heq.symm)
    rw [if_neg hfull]
    exact ⟨iff_of_false (fun hf => by cases hf) hne, fun hf => by cases hf⟩

/-- An access to a register that receives nothing leaves the ring alone. -/
theorem access_ring {m : Machine c} {op : UartOp} (hpush : ∀ ch, op ≠ .push ch)
    (hrec : m.uart.receives op = false) :
    (uartStep m op).uart.ringBuffer = m.uart.ringBuffer := by
  cases op with
  | push ch => exact absurd rfl (hpush ch)
  | uartRead addr buf => exact congrArg Ns16550a.ringBuffer (read_self m addr buf hrec)
  | uartWrite addr buf => exact Ns16550a.cbWrite_ring m addr buf
  | plicRead addr buf => rfl
  | plicWrite addr buf => rfl

/-- What holds of the UART after a history `ops` from the state `start`. -/
structure UartFifo (start : Machine c) (ops : List UartOp) : Prop where
  indices : RingIndices (Run.run uartStep start ops).uart.ringBuffer
  history : acceptedBytes start ops
    = receivedBytes start ops ++ (Run.run uartStep start ops).uart.queued
  refused : ∀ ch, ((ns16550Push (Run.run uartStep start ops) ch).2 = false
      ↔ (Run.run uartStep start ops).uart.queued.length = 256)
    ∧ ((ns16550Push (Run.run uartStep start ops) ch).2 = false →
      (ns16550Push (Run.run uartStep start ops) ch).1 = Run.run uartStep start ops)
  untouched : ∀ op, (∀ ch, op ≠ .push ch) →
    (Run.run uartStep start ops).uart.receives op = false →
    (uartStep (Run.run uartStep start ops) op).uart.ringBuffer
      = (Run.run uartStep start ops).uart.ringBuffer
  refines : ∃ q : Fifo Byte 256, q.items = (Run.run uartStep start ops).uart.queued ∧
    ∀ op, (uartStep (Run.run uartStep start ops) op).uart.queued
      = (q.step ((Run.run uartStep start ops).uart.queueOp op)).items

theorem ns16550aInit_ok : ns16550aInit.ringBuffer.ring.Ok :=
  ⟨Nat.zero_le _, by decide, by decide⟩

/-- **The UART ring is a bounded queue**, over every history from `ns16550a_init`, whatever the
rest of the machine is. -/
theorem uart_refines_fifo (m : Machine c) (ops : List UartOp) :
    UartFifo { m with uart := ns16550aInit } ops := by
  generalize hstart : ({ m with uart := ns16550aInit } : Machine c) = start
  have hok : start.uart.ringBuffer.ring.Ok := by rw [← hstart]; exact ns16550aInit_ok
  have hempty : (start.uart.fifo hok).items = [] := by subst hstart; rfl
  obtain ⟨hend, hqueued, hacc, hrec⟩ := run_simulates start ops hok
  refine ⟨RingIndices.of_ok hend, ?_, push_refused_iff hend,
    fun op hpush hno => access_ring hpush hno, _, rfl,
    fun op => (uartStep_simulates _ op hend).queued⟩
  rw [hacc, hrec, hqueued, ← Fifo.run_conserves, hempty, List.nil_append]

end RV640
