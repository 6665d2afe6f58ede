import ZkvmRv64.Basic
import ZkvmRv64.Rrs.Memories
import ZkvmRv64.Binfmt.Elf
import ZkvmRv64.Binfmt.ElfImage
import ZkvmRv64.Binfmt.Image
import ZkvmRv64.Exec.Monitor
import ZkvmRv64.Exec.Commit
import ZkvmRv64.Exec.RoundTrip
import ZkvmRv64.Exec.Registers
import ZkvmRv64.Opcode
import ZkvmRv64.Rrs.Hart
import ZkvmRv64.Rrs.ByteView
import ZkvmRv64.Rrs.Executor
import ZkvmRv64.Rrs.Atomicity
import ZkvmRv64.Rrs.Alignment
import ZkvmRv64.Rrs.WordOps
import ZkvmRv64.Rrs.MulDiv
import ZkvmRv64.Exec.Step
import ZkvmRv64.Rrs.Footprint
import ZkvmRv64.Exec.Cycle
import ZkvmRv64.Rrs.Simulation
import ZkvmRv64.Exec.Atomic
import ZkvmRv64.Rrs.Frame
import ZkvmRv64.Exec.Direct
import ZkvmRv64.Exec.Run
