import PreemptiveKernel.Boot.Transcript
import PreemptiveKernel.Critical
import PreemptiveKernel.FirstRun
import PreemptiveKernel.Session
import PreemptiveKernel.Proofs.Arrangement
import PreemptiveKernel.Proofs.Ends
import PreemptiveKernel.Proofs.Steps
import PreemptiveKernel.Proofs.Sound
import PreemptiveKernel.Proofs.Operations
import PreemptiveKernel.Proofs.Requests
import PreemptiveKernel.Proofs.Histories
import PreemptiveKernel.Proofs.ReadyQueues
import PreemptiveKernel.Proofs.Priority
import PreemptiveKernel.Proofs.Handoffs
import PreemptiveKernel.Proofs.Wakeups
import PreemptiveKernel.Proofs.Mail
import PreemptiveKernel.Proofs.Waiting
import PreemptiveKernel.Proofs.Beginnings
import PreemptiveKernel.Proofs.Timeouts
import PreemptiveKernel.Proofs.Provisions
import PreemptiveKernel.Proofs.Refusals
import PreemptiveKernel.Proofs.Preemption
import PreemptiveKernel.Proofs.TimeoutOrder
import PreemptiveKernel.Proofs.Phase
import PreemptiveKernel.Proofs.SerialLine
import PreemptiveKernel.Proofs.Calls
import PreemptiveKernel.Proofs.Console
import PreemptiveKernel.Proofs.Typing
import PreemptiveKernel.Proofs.Masking
import PreemptiveKernel.Proofs.Guarding
import PreemptiveKernel.Proofs.Sharing
import PreemptiveKernel.Proofs.Awaiting
import PreemptiveKernel.Proofs.Company
import PreemptiveKernel.Proofs.Drawing
import PreemptiveKernel.Proofs.Blinking
import PreemptiveKernel.Proofs.Decoding
import PreemptiveKernel.Proofs.Encoding
import PreemptiveKernel.Proofs.RoundRobin
import PreemptiveKernel.Proofs.Bystanders
import PreemptiveKernel.Proofs.LevelChanges
import PreemptiveKernel.Proofs.HeapMemory
import PreemptiveKernel.Proofs.FirstImage
import PreemptiveKernel.Proofs.Endurance
import PreemptiveKernel.Proofs.Renumbering
import PreemptiveKernel.Proofs.Printing
import PreemptiveKernel.Proofs.Inventory
import PreemptiveKernel.Proofs.Identity
import PreemptiveKernel.Proofs.Descriptors
