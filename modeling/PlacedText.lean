import PlacedText.Comparison
import PlacedText.Opening
import PlacedText.Placed.Class
import PlacedText.Placed.Survey
import PlacedText.Placed.Written
import PlacedText.Proofs.Comparison
import PlacedText.Proofs.Encoding.Fronts
import PlacedText.Proofs.Encoding.Lossy
import PlacedText.Proofs.Encoding.Marked
import PlacedText.Proofs.Encoding.Strict
import PlacedText.Proofs.Encoding.Subparts
import PlacedText.Proofs.Encoding.Utf8
import PlacedText.Proofs.Encoding.Wide
import PlacedText.Proofs.Opening
import PlacedText.Proofs.Placed.Lines
import PlacedText.Proofs.Placed.Reference
import PlacedText.Proofs.Placed.Succession
import PlacedText.Proofs.Placed.Written
import PlacedText.Proofs.Reader.Accounting
import PlacedText.Proofs.Reader.Ahead
import PlacedText.Proofs.Reader.Alike
import PlacedText.Proofs.Reader.Blocks
import PlacedText.Proofs.Reader.Bytes
import PlacedText.Proofs.Reader.Delivery
import PlacedText.Proofs.Reader.Encoded
import PlacedText.Proofs.Reader.Ending
import PlacedText.Proofs.Reader.Fault
import PlacedText.Proofs.Reader.Latching
import PlacedText.Proofs.Reader.Leftover
import PlacedText.Proofs.Reader.Lines
import PlacedText.Proofs.Reader.Looking
import PlacedText.Proofs.Reader.Meeting
import PlacedText.Proofs.Reader.Muted
import PlacedText.Proofs.Reader.Refinement
import PlacedText.Proofs.Reader.Remaining
import PlacedText.Proofs.Reader.RestOfLine
import PlacedText.Proofs.Reader.Room
import PlacedText.Proofs.Reader.ToEnd
import PlacedText.Proofs.Reader.Trail
import PlacedText.Proofs.Running.Keeping
import PlacedText.Proofs.Running.Outcome
import PlacedText.Proofs.Session.Ahead
import PlacedText.Proofs.Session.Alike
import PlacedText.Proofs.Session.Blocks
import PlacedText.Proofs.Session.Bytes
import PlacedText.Proofs.Session.Closing
import PlacedText.Proofs.Session.Delivery
import PlacedText.Proofs.Session.Ending
import PlacedText.Proofs.Session.Independence
import PlacedText.Proofs.Session.Latching
import PlacedText.Proofs.Session.Leftover
import PlacedText.Proofs.Session.Looking
import PlacedText.Proofs.Session.Moments
import PlacedText.Proofs.Session.RestOfLine
import PlacedText.Proofs.Session.SourceCursor
import PlacedText.Proofs.Session.Succession
import PlacedText.Proofs.Session.Trail
import PlacedText.Proofs.Session.Unfailing
import PlacedText.Proofs.Source.Accounting
import PlacedText.Proofs.Source.Ahead
import PlacedText.Proofs.Source.Closing
import PlacedText.Proofs.Source.Holding
import PlacedText.Proofs.Source.Keeping
import PlacedText.Proofs.Stream.ChunkSize
import PlacedText.Proofs.Stream.Chunks
import PlacedText.Proofs.Stream.Decoding
import PlacedText.Proofs.Stream.Delivering
import PlacedText.Proofs.Stream.Exact
import PlacedText.Proofs.Stream.Marked
import PlacedText.Proofs.Stream.Muted
import PlacedText.Proofs.Stream.Passing
import PlacedText.Proofs.Stream.Recorded
import PlacedText.Proofs.Stream.Room
import PlacedText.Proofs.Stream.Shutting
import PlacedText.Proofs.Stream.Watched
import PlacedText.Proofs.Text.Decimal
import PlacedText.Proofs.Text.Quoted
import PlacedText.Reader.Supply
import PlacedText.Session.Reader
import PlacedText.Session.Source
