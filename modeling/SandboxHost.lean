import SandboxHost.Main
import SandboxHost.Syscall.Description
import SandboxHost.Proofs.Trace
import SandboxHost.Proofs.Execution
import SandboxHost.Proofs.Law
import SandboxHost.Proofs.Blocks
import SandboxHost.Proofs.HostPrograms
import SandboxHost.Proofs.Rollback
import SandboxHost.Proofs.Likeness
import SandboxHost.Proofs.SystemCalls
import SandboxHost.Proofs.Interruption
import SandboxHost.Proofs.Pairing
import SandboxHost.Proofs.Scopes
import SandboxHost.Proofs.CallContract
import SandboxHost.Proofs.Ledger
import SandboxHost.Proofs.Ownership
import SandboxHost.Proofs.KeptPointers
import SandboxHost.Proofs.ScratchBlock
import SandboxHost.Proofs.Sequences
import SandboxHost.Proofs.Heeding
import SandboxHost.Proofs.Unwinding
import SandboxHost.Proofs.ChannelSteps
import SandboxHost.Proofs.SharedBuffer
import SandboxHost.Proofs.Handshake
import SandboxHost.Proofs.Jobs
import SandboxHost.Proofs.Correlation
import SandboxHost.Proofs.Abandonment
import SandboxHost.Proofs.Instances
import SandboxHost.Proofs.Placement
import SandboxHost.Proofs.Refinement
import SandboxHost.Proofs.Reading
import SandboxHost.Proofs.InputStream
import SandboxHost.Proofs.FailedLoad
import SandboxHost.Proofs.InputAccount
import SandboxHost.Proofs.StaleState
import SandboxHost.Proofs.Independence
import SandboxHost.Proofs.Stores
import SandboxHost.Proofs.TextBytes
import SandboxHost.Proofs.FixedSlots
import SandboxHost.Proofs.Entering
import SandboxHost.Proofs.HonestAllocator
import SandboxHost.Proofs.ArgumentLists
import SandboxHost.Proofs.PassedText
import SandboxHost.Proofs.Resolution
import SandboxHost.Proofs.ErrorReports
import SandboxHost.Proofs.GuestBuffers
import SandboxHost.Proofs.LoadCalls
import SandboxHost.Proofs.LoadProtocol
import SandboxHost.Proofs.JsonForms
import SandboxHost.Proofs.RoundTrips
import SandboxHost.Proofs.ImportPrecedence
import SandboxHost.Proofs.Pauses
import SandboxHost.Proofs.Relinking
import SandboxHost.Proofs.ExitCodes
import SandboxHost.Proofs.ErrorNumbers
import SandboxHost.Proofs.ConstantsFetch
import SandboxHost.Proofs.JsonTexts
import SandboxHost.Proofs.KeptBinding
import SandboxHost.Proofs.ConstantsTable
import SandboxHost.Proofs.ArgumentShapes
import SandboxHost.Proofs.ShapedCalls
import SandboxHost.Proofs.ConsiderateGuests
