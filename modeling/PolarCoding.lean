import PolarCoding.Action
import PolarCoding.Lanes.Register
import PolarCoding.Buffer
import PolarCoding.Stage.Basic
import PolarCoding.Encoder
import PolarCoding.Kernel.Detection
import PolarCoding.Kernel.Encode
import PolarCoding.Lanes.Encode
import PolarCoding.Lanes.Machine
import PolarCoding.Scalar
import PolarCoding.Stage.Cursor
import PolarCoding.Trial.Basic
import PolarCoding.Trial.EncoderCase
import PolarCoding.Trial.KernelCase
import PolarCoding.Proofs.Blocks
import PolarCoding.Proofs.Pairs
import PolarCoding.Proofs.Transform
import PolarCoding.Proofs.ClosedForm
import PolarCoding.Proofs.Encoder.Checks
import PolarCoding.Proofs.Encoder.History
import PolarCoding.Proofs.Encoder.Reencoding
import PolarCoding.Proofs.Linearity
import PolarCoding.Proofs.Weight
import PolarCoding.Proofs.Encoder.Distance
import PolarCoding.Proofs.Lanes.Journal
import PolarCoding.Proofs.Dispatch
import PolarCoding.Proofs.Involution
import PolarCoding.Proofs.Encoder.Defects
import PolarCoding.Proofs.Superposition
import PolarCoding.Proofs.Noninterference
import PolarCoding.Proofs.Atomicity
import PolarCoding.Proofs.Encoder.Calls
import PolarCoding.Proofs.Lanes.Stages
import PolarCoding.Proofs.Trial.Drawing
import PolarCoding.Proofs.Trial.Verdict
import PolarCoding.Proofs.Interleaving
import PolarCoding.Proofs.Branches
import PolarCoding.Proofs.Merging
import PolarCoding.Proofs.Residue
import PolarCoding.Proofs.Chains
import PolarCoding.Proofs.Cursors
import PolarCoding.Proofs.Copies
