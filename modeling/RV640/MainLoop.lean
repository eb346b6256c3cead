import RV640.Cpu.Run

set_option autoImplicit false

/-! # The main loop (`main.c`)

One iteration runs the hart, advances the timer by the instructions run and, where the hart waits
for an interrupt, sleeps until the deadline and advances the timer by the time slept. The widths of
`unsigned int` and of `useconds_t` are parameters: the program is built for two hosts. Display and
keyboard are left out; a key reaches the machine as an event of its own.
-/

namespace RV640

open Bits

variable {c : Cfg}

/-- `ACLINT_FREQENCY`. -/
def aclintFreqency : BitVec 64 := 10000000#64

/-- `aclint_usecs`: the ticks of a microsecond. -/
def aclintUsecs : BitVec 64 := aclintFreqency / 1000000#64

/-- `mtimeRemains_us`, clamped. -/
def mtimeRemainsUs (self : Aclint) : BitVec 64 :=
  let us := aclintMtimeRemains self / aclintUsecs
  if 100000#64 < us then 100000#64 else us

/-- The body of `if(rv_isWFI(..))`, with the argument that `usleep` gets. The arguments of `usleep`
and of `aclint_tick` are converted to the types of their parameters. -/
def idleStep (uintBits usecondsBits : Nat) (m : Machine c) : Machine c × Nat :=
  let us := mtimeRemainsUs m.aclint
  let cycles := BitVec.ofNat 32 ((us * aclintUsecs).toNat % 2 ^ uintBits)
  (stepEvent m (.tick cycles), us.toNat % 2 ^ usecondsBits)

/-- `cyclesPerStep`. -/
def cyclesPerStep : Nat := 100

/-- One iteration of `for(long int cyclesAcc = 0;;)`. -/
def mainLoopStep (uintBits usecondsBits : Nat) (m : Machine c) : Machine c :=
  let m := (List.range cyclesPerStep).foldl (fun m _ => rvRun m) m
  let m := stepEvent m (.tick (BitVec.ofNat 32 cyclesPerStep))
  if m.cpu.wfi then (idleStep uintBits usecondsBits m).1 else m

/-- `ui_getch`, for the character that the host has, if any. The Linux build drops a NUL. The result
is always `true`. -/
def uiGetch (dos : Bool) (m : Machine c) : Option Byte → Machine c
  | none => m
  | some ch => if dos || ch != 0#8 then (ns16550Push m ch).1 else m

/-- The loop, which does not end, up to the `ui_getch` that has got the last of the `keys`. -/
def mainLoop (dos : Bool) (uintBits usecondsBits : Nat) (m : Machine c)
    (keys : List (Option Byte)) : Machine c :=
  keys.foldl (fun m key => uiGetch dos (mainLoopStep uintBits usecondsBits m) key) m

end RV640
