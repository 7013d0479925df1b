import TurtleLogo.Main
import TurtleLogo.Proofs.Casing
import TurtleLogo.Proofs.Friendly
import TurtleLogo.Proofs.Halting
import TurtleLogo.Proofs.Precedence
import TurtleLogo.Proofs.Refusal
import TurtleLogo.Proofs.Shelter
import TurtleLogo.Proofs.Showing
import TurtleLogo.Proofs.Stopping
import TurtleLogo.Proofs.Astray
import TurtleLogo.Proofs.Conduct
import TurtleLogo.Proofs.Filling
import TurtleLogo.Proofs.Quantity
import TurtleLogo.Proofs.Channels
import TurtleLogo.Proofs.Edges
import TurtleLogo.Proofs.Joining
import TurtleLogo.Proofs.Listing
import TurtleLogo.Proofs.Saving
import TurtleLogo.Proofs.Roster
import TurtleLogo.Proofs.Counted
import TurtleLogo.Proofs.Failed
import TurtleLogo.Proofs.Unshadowed
import TurtleLogo.Proofs.Asking
import TurtleLogo.Proofs.Nesting
import TurtleLogo.Proofs.Defining
import TurtleLogo.Proofs.Progress
import TurtleLogo.Proofs.Nearest
import TurtleLogo.Proofs.Comparison
import TurtleLogo.Proofs.Wrapping
import TurtleLogo.Proofs.Retrace
import TurtleLogo.Proofs.Export
import TurtleLogo.Proofs.Finitary
import TurtleLogo.Proofs.Lookup
import TurtleLogo.Proofs.Reply
import TurtleLogo.Proofs.Viewing
import TurtleLogo.Proofs.Rounding
