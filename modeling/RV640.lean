import RV640.Cpu.Run
import RV640.Isa.Compressed
import RV640.Proofs.Amo
import RV640.Proofs.ArchState
import RV640.Proofs.Boot
import RV640.Proofs.BusDecode
import RV640.Proofs.Causes
import RV640.Proofs.Compressed
import RV640.Proofs.Confinement
import RV640.Proofs.ControlTransfer
import RV640.Proofs.CsrRestore
import RV640.Proofs.DecoderExact
import RV640.Proofs.Decoding
import RV640.Proofs.Division
import RV640.Proofs.FaultCause
import RV640.Proofs.FetchFault
import RV640.Proofs.Frames
import RV640.Proofs.HighMul
import RV640.Proofs.Icache
import RV640.Proofs.IdleStep
import RV640.Proofs.ImageLoad
import RV640.Proofs.IrqFlag
import RV640.Proofs.IrqSelect
import RV640.Proofs.IsaRun
import RV640.Proofs.Isolation
import RV640.Proofs.LoadStore
import RV640.Proofs.LruList
import RV640.Proofs.MainProgram
import RV640.Proofs.Micro
import RV640.Proofs.Modes
import RV640.Proofs.PlicArbitration
import RV640.Proofs.PlicDelivery
import RV640.Proofs.PlicIndices
import RV640.Proofs.PlicRegisters
import RV640.Proofs.PreciseTrap
import RV640.Proofs.Reservation
import RV640.Proofs.SbiCalls
import RV640.Proofs.SbiProbe
import RV640.Proofs.SignArith
import RV640.Proofs.Sleep
import RV640.Proofs.StaleTimer
import RV640.Proofs.SwapContainment
import RV640.Proofs.SwapLru
import RV640.Proofs.SwapSessions
import RV640.Proofs.Terminal
import RV640.Proofs.TimerDelivery
import RV640.Proofs.TimerLatch
import RV640.Proofs.TrapReturn
import RV640.Proofs.UartFifo
import RV640.Proofs.UartInterrupt
import RV640.Proofs.WordOps
