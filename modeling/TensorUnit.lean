import TensorUnit.Action
import TensorUnit.AddressUnits
import TensorUnit.Architecture
import TensorUnit.Architecture.Document
import TensorUnit.Architecture.Text
import TensorUnit.Bytes
import TensorUnit.DataType
import TensorUnit.DataType.Codec
import TensorUnit.DataType.Fixed
import TensorUnit.DecodeError
import TensorUnit.Double
import TensorUnit.Double.Document
import TensorUnit.Duration
import TensorUnit.EncodeError
import TensorUnit.Exact
import TensorUnit.Field
import TensorUnit.Host.Config
import TensorUnit.Host.Document
import TensorUnit.Host.Driver
import TensorUnit.Host.Error
import TensorUnit.Host.Files
import TensorUnit.Host.Mem
import TensorUnit.Host.Model
import TensorUnit.Host.Operation
import TensorUnit.Host.Policy
import TensorUnit.Host.Probe
import TensorUnit.Host.Transfer
import TensorUnit.Json
import TensorUnit.Json.Document
import TensorUnit.Json.Parser
import TensorUnit.Json.Printer
import TensorUnit.Json.Token
import TensorUnit.Listing
import TensorUnit.Numerals
import TensorUnit.Proofs.Action
import TensorUnit.Proofs.Architecture
import TensorUnit.Proofs.Binary64
import TensorUnit.Proofs.FixedPoint
import TensorUnit.Proofs.Formatting
import TensorUnit.Proofs.Host.Access
import TensorUnit.Proofs.Host.Agreement
import TensorUnit.Proofs.Host.Arguments
import TensorUnit.Proofs.Host.Bounds
import TensorUnit.Proofs.Host.Caller
import TensorUnit.Proofs.Host.Calls
import TensorUnit.Proofs.Host.Chunks
import TensorUnit.Proofs.Host.Closing
import TensorUnit.Proofs.Host.Confinement
import TensorUnit.Proofs.Host.Delivery
import TensorUnit.Proofs.Host.Errors
import TensorUnit.Proofs.Host.Exchange
import TensorUnit.Proofs.Host.Flush
import TensorUnit.Proofs.Host.Harmless
import TensorUnit.Proofs.Host.History
import TensorUnit.Proofs.Host.Inputs
import TensorUnit.Proofs.Host.Loading
import TensorUnit.Proofs.Host.Moments
import TensorUnit.Proofs.Host.Outputs
import TensorUnit.Proofs.Host.Parts
import TensorUnit.Proofs.Host.Payload
import TensorUnit.Proofs.Host.Preloading
import TensorUnit.Proofs.Host.Probe
import TensorUnit.Proofs.Host.Ranges
import TensorUnit.Proofs.Host.Reading
import TensorUnit.Proofs.Host.Refinement
import TensorUnit.Proofs.Host.Regions
import TensorUnit.Proofs.Host.Release
import TensorUnit.Proofs.Host.Setup
import TensorUnit.Proofs.Host.Staging
import TensorUnit.Proofs.Host.Stamps
import TensorUnit.Proofs.Host.Storage
import TensorUnit.Proofs.Host.Teardown
import TensorUnit.Proofs.Host.Tracking
import TensorUnit.Proofs.Host.Transfer
import TensorUnit.Proofs.Host.Trust
import TensorUnit.Proofs.Host.Unseen
import TensorUnit.Proofs.Host.Upkeep
import TensorUnit.Proofs.Listing
import TensorUnit.Proofs.Packing
import TensorUnit.Proofs.Positions
import TensorUnit.Proofs.Remote.Ledger
import TensorUnit.Proofs.Scalars
import TensorUnit.Proofs.Sim.Addresses
import TensorUnit.Proofs.Sim.Cells
import TensorUnit.Proofs.Sim.Device
import TensorUnit.Proofs.Sim.Memory
import TensorUnit.Proofs.Sim.Moments
import TensorUnit.Proofs.Sim.Moves
import TensorUnit.Proofs.Sim.Order
import TensorUnit.Proofs.Sim.Queue
import TensorUnit.Proofs.Sim.Resolution
import TensorUnit.Proofs.Sim.Rows
import TensorUnit.Proofs.Sim.Simulator
import TensorUnit.Proofs.Sim.Stepping
import TensorUnit.Proofs.Sim.Strides
import TensorUnit.Proofs.Sim.Writes
import TensorUnit.Proofs.Stamping
import TensorUnit.Proofs.Tcu.Canonical
import TensorUnit.Proofs.Tcu.Capacity
import TensorUnit.Proofs.Tcu.Fitting
import TensorUnit.Proofs.Tcu.RoundTrip
import TensorUnit.Proofs.Text
import TensorUnit.Proofs.Tokens
import TensorUnit.Proofs.Units
import TensorUnit.Proofs.Unpacking
import TensorUnit.Proofs.Vta.Canonical
import TensorUnit.Proofs.Vta.Placement
import TensorUnit.Proofs.Vta.RoundTrip
import TensorUnit.Proofs.Vta.Tables
import TensorUnit.Remote.Batch
import TensorUnit.Remote.Document
import TensorUnit.Remote.Error
import TensorUnit.Remote.Service
import TensorUnit.Remote.Switch
import TensorUnit.Sim.Buffer
import TensorUnit.Sim.Device
import TensorUnit.Sim.Document
import TensorUnit.Sim.Memory
import TensorUnit.Sim.Simulator
import TensorUnit.Space
import TensorUnit.Space.Document
import TensorUnit.SpecError
import TensorUnit.Tcu.Decode
import TensorUnit.Tcu.Document
import TensorUnit.Tcu.Encode
import TensorUnit.Tcu.Instruction
import TensorUnit.Tcu.Layout
import TensorUnit.Tcu.Opcode
import TensorUnit.Tcu.Text
import TensorUnit.Text.Hex
import TensorUnit.Vta.Decode
import TensorUnit.Vta.Document
import TensorUnit.Vta.Encoder
import TensorUnit.Vta.Instruction
import TensorUnit.Vta.Isa
import TensorUnit.Vta.Shape
import TensorUnit.Vta.Text
