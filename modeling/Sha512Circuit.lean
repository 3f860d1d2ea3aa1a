import Sha512Circuit.Ops
import Sha512Circuit.Lib.Loop
import Sha512Circuit.Lib.Bytes
import Sha512Circuit.Lib.Radix
import Sha512Circuit.Lib.FieldBits
import Sha512Circuit.Lib.CyclicDomain
import Sha512Circuit.Lib.MerkleDamgard
import Sha512Circuit.Lib.Wire
import Sha512Circuit.Compress.Model
import Sha512Circuit.Compress.Fips
import Sha512Circuit.Compress.Refine
import Sha512Circuit.Compress.Padding
import Sha512Circuit.Compress.Hash
import Sha512Circuit.Compress.Extension
import Sha512Circuit.Compress.Validate
import Sha512Circuit.Air.Columns
import Sha512Circuit.Air.Constraints
import Sha512Circuit.Air.TraceBuilder
import Sha512Circuit.Air.RoundAir
import Sha512Circuit.Air.Limbs
import Sha512Circuit.Air.Gadgets
import Sha512Circuit.Air.BitPolynomials
import Sha512Circuit.Air.EvalSpec
import Sha512Circuit.Air.RowSpec
import Sha512Circuit.Air.TraceSpec
import Sha512Circuit.Air.PrepSpec
import Sha512Circuit.Air.PrepLayout
import Sha512Circuit.Air.Segment
import Sha512Circuit.Air.Honest
import Sha512Circuit.Air.Additions
import Sha512Circuit.Air.Windows
import Sha512Circuit.Air.SingleBlock
import Sha512Circuit.Air.MessageSpec
import Sha512Circuit.Air.Message
import Sha512Circuit.Air.Boundaries
import Sha512Circuit.Air.Stacking
import Sha512Circuit.Air.PublicValues
import Sha512Circuit.Air.Reversal
import Sha512Circuit.Air.Symbolic
import Sha512Circuit.Air.Determined
import Sha512Circuit.Air.Prehistory
import Sha512Circuit.Air.Prefixes
import Sha512Circuit.Api.Model
import Sha512Circuit.Api.Serialization
import Sha512Circuit.Api.ProveVerify
import Sha512Circuit.Api.PrivateSeed
import Sha512Circuit.Api.Instances
import Sha512Circuit.Api.RoundTrip
import Sha512Circuit.Api.Completeness
import Sha512Circuit.Api.Digests
import Sha512Circuit.Api.Collisions
import Sha512Circuit.Api.Extension
import Sha512Circuit.Api.Sealed
import Sha512Circuit.Api.Statements
import Sha512Circuit.Api.RecordedSettings
import Sha512Circuit.Api.SizeGuard
import Sha512Circuit.Api.Formats
import Sha512Circuit.Api.SealedBytes
import Sha512Circuit.Air.TracePolynomials
import Sha512Circuit.Air.ConstraintDegree
import Sha512Circuit.Air.OutOfDomain
