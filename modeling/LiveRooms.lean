import LiveRooms.Batcher.Run
import LiveRooms.Main
import LiveRooms.Proofs.Batcher.Course
import LiveRooms.Wire.Edit
import LiveRooms.Wire.Failure
import LiveRooms.Wire.Filter
import LiveRooms.Wire.Status
import LiveRooms.Wire.Summary
import LiveRooms.Wire.Viewport
import LiveRooms.World.Report
import LiveRooms.Proofs.World.Published
import LiveRooms.Proofs.World.Distinct
import LiveRooms.Proofs.Batcher.Delivery
import LiveRooms.Proofs.World.Decided
import LiveRooms.Proofs.World.RequestOrder
import LiveRooms.Proofs.World.AttachOnce
import LiveRooms.Proofs.World.Dropped
import LiveRooms.Pipeline.Reading
import LiveRooms.Proofs.Pipeline.Reading
import LiveRooms.Exchange
import LiveRooms.Proofs.Exchange.Course
import LiveRooms.Proofs.Exchange.Orderly
import LiveRooms.Proofs.Exchange.SingleWriter
import LiveRooms.Proofs.Exchange.Rebuilds
import LiveRooms.Proofs.Exchange.Current
import LiveRooms.Proofs.Store.Desk
import LiveRooms.Proofs.Exchange.Desk
import LiveRooms.Proofs.Batcher.Stock
import LiveRooms.Proofs.World.Prospect
import LiveRooms.Proofs.World.Outlook
import LiveRooms.Proofs.World.Forecast
import LiveRooms.Proofs.Exchange.Punctual
import LiveRooms.Proofs.Exchange.Forecast
import LiveRooms.Proofs.Wire.DataModel
import LiveRooms.Proofs.Pipeline.BuildFirst
import LiveRooms.Proofs.Exchange.Shape
import LiveRooms.Proofs.Edit.Pieces
import LiveRooms.Proofs.Edit.Folding
import LiveRooms.Proofs.Batcher.Windows
import LiveRooms.Proofs.Config.FirstRefused
import LiveRooms.Proofs.Room.Shown
import LiveRooms.Proofs.Filter.Translation
import LiveRooms.Proofs.Filter.Conjuncts
import LiveRooms.Proofs.Event.Senders
import LiveRooms.Proofs.Viewport.Limits
import LiveRooms.Proofs.Edit.Naturality
import LiveRooms.Proofs.World.LaterNotices
