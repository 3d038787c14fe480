import Chaining.Text.Basic
import Chaining.Text.Numeral
import Chaining.Text.Printable
import Chaining.Text.Literal
import Chaining.Crc32
import Chaining.Binary64
import Chaining.Rounding
import Chaining.Binary64.Arith
import Chaining.Decimal.Shortest
import Chaining.Decimal.Notation
import Chaining.Decimal.Fixed
import Chaining.Datum.Basic
import Chaining.Datum.Render
import Chaining.Fault
import Chaining.Key
import Chaining.Chain
import Chaining.Heap
import Chaining.Hashing
import Chaining.Table.Shape
import Chaining.Table.Row
import Chaining.Table.Basic
import Chaining.Table.Trace
import Chaining.Table.Ops
import Chaining.Table.View
import Chaining.Session
import Chaining.ChainQuery
import Chaining.Template.Syntax
import Chaining.Template.Convert
import Chaining.Template.Fill
import Chaining.Proofs.Chain
import Chaining.Proofs.Row
import Chaining.Proofs.Table
import Chaining.Proofs.Session
import Chaining.Proofs.MapView
import Chaining.Proofs.Invariant
import Chaining.Proofs.Refusal
import Chaining.Proofs.Release
import Chaining.Proofs.Store
import Chaining.Proofs.Copy
import Chaining.Proofs.Order
import Chaining.Proofs.Safety
import Chaining.Proofs.Commute
import Chaining.Proofs.Trace
import Chaining.Proofs.Occupancy
import Chaining.Proofs.Listing
import Chaining.Proofs.Walk
import Chaining.Proofs.Crc32
import Chaining.Proofs.Hashing
