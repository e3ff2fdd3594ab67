import Wren7.Reactive.Bursts
import Wren7.Reactive.Checked
import Wren7.Reactive.Commit
import Wren7.Reactive.Delay
import Wren7.Reactive.Machine
import Wren7.Store.Overlay
import Wren7.Bits.Booth
import Wren7.Bits.Carry
import Wren7.Bits.Place
import Wren7.Bits.SetBits
import Wren7.Bits.Words
import Wren7.Random.Draw
import Wren7.Grid.Backtrack
import Wren7.Grid.Search
import Wren7.Grid.Stages
import Wren7.Model.Abort
import Wren7.Model.Accesses
import Wren7.Model.Architecture
import Wren7.Model.Arm7DI
import Wren7.Model.BlockTransfer
import Wren7.Model.Conditions
import Wren7.Model.Control
import Wren7.Model.Decode
import Wren7.Model.Exceptions
import Wren7.Model.Exec
import Wren7.Model.Instr
import Wren7.Model.Isolation
import Wren7.Model.Memory
import Wren7.Model.MultiTransfer
import Wren7.Model.Multiply
import Wren7.Model.Outcome
import Wren7.Model.Pace
import Wren7.Model.Pipeline
import Wren7.Model.Protocol
import Wren7.Model.Redo
import Wren7.Model.Reset
import Wren7.Model.Restart
import Wren7.Model.Run
import Wren7.Model.Sequences
import Wren7.Model.Shifter
import Wren7.Model.Spec
import Wren7.Model.Status
import Wren7.Model.Steady
import Wren7.Model.Synchroniser
import Wren7.Model.Transfer
import Wren7.Model.Types
import Wren7.Model.Untouched
import Wren7.Model.Veil
import Wren7.Rtl.Aica
import Wren7.Rtl.Core
import Wren7.Rtl.Cycle
import Wren7.Rtl.Mlab
import Wren7.Rtl.Regfile
import Wren7.Rtl.Shifter
import Wren7.Rtl.WritePort
import Wren7.Equiv.Abort
import Wren7.Equiv.Block
import Wren7.Equiv.Boundary
import Wren7.Equiv.Conditions
import Wren7.Equiv.CoreTb
import Wren7.Equiv.Datapath
import Wren7.Equiv.LockStep
import Wren7.Equiv.MemoryMap
import Wren7.Equiv.NoMismatch
import Wren7.Equiv.Psr
import Wren7.Equiv.Shifter
import Wren7.Equiv.Sim
import Wren7.Equiv.Steps
import Wren7.Aica.Adpcm
import Wren7.Aica.Arbiter
import Wren7.Aica.Arrivals
import Wren7.Aica.DcArmBus
import Wren7.Aica.External
import Wren7.Aica.Grants
import Wren7.Aica.Handshake
import Wren7.Aica.Harness
import Wren7.Aica.Hook
import Wren7.Aica.Placement
import Wren7.Aica.RegBlock
import Wren7.Aica.SampleClock
import Wren7.Aica.Slots
import Wren7.System.Basic
import Wren7.System.Cost
import Wren7.System.Jobs
import Wren7.System.Latency
import Wren7.System.Line
import Wren7.System.PushPop
import Wren7.System.Scpu
import Wren7.System.SingleTransfer
import Wren7.System.Timing
import Wren7.System.WaveRam
import Wren7.Tools.Cases
import Wren7.Tools.Contained
import Wren7.Tools.Gen
import Wren7.Tools.HwJob
