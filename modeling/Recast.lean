import Recast.Hierarchy.Platform
import Recast.Cast.Pass
import Recast.Json.Reader
import Recast.Json.Printer
import Recast.Syntax.Decode
import Recast.Settings.Load
import Recast.Settings.LogFilter
import Recast.Proofs.Fit
import Recast.Proofs.Frame
import Recast.Proofs.Idempotence
import Recast.Proofs.Tour
import Recast.Proofs.Heads
import Recast.Proofs.Removal
import Recast.Proofs.Bodies
import Recast.Proofs.Balance
import Recast.Proofs.Inserts
import Recast.Proofs.Needless
import Recast.Proofs.Reach
import Recast.Proofs.Erasure
import Recast.Proofs.Members
import Recast.Proofs.Overloading
import Recast.Proofs.Spelling
import Recast.Proofs.TypesReread
import Recast.Proofs.TreesReread
import Recast.Proofs.RoundTrip
import Recast.Proofs.RawOrder
import Recast.Proofs.Unwrapping
import Recast.Proofs.RawFallback
import Recast.Proofs.Session
import Recast.Proofs.Nulls
import Recast.Proofs.Within
import Recast.Proofs.Lines
import Recast.Proofs.Tally
import Recast.Proofs.GroundOrder
import Recast.Proofs.Capture
import Recast.Proofs.Literals
import Recast.Proofs.Declaring
import Recast.Proofs.MoreBounds
import Recast.Proofs.Trailing
import Recast.Proofs.Arguments
import Recast.Proofs.Creations
import Recast.Proofs.Covariance
import Recast.Proofs.Composition
import Recast.Proofs.Growth
