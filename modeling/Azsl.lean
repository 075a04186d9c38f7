import Azsl.Grammar.Parse
import Azsl.Main
import Azsl.Server.Packet
import Azsl.Server.Session
import Azsl.Symbol.Collect
import Azsl.Token.Semantic
import Azsl.Workspace.Analysis
import Azsl.Workspace.Query
import Azsl.Uri.Domain.Direction
import Azsl.Uri.Domain.Joining
import Azsl.Uri.Domain.Mapping
import Azsl.Uri.Domain.Normal
import Azsl.Proofs.Grammar.Alike
import Azsl.Proofs.Grammar.Twin
import Azsl.Proofs.Grammar.State
import Azsl.Proofs.Grammar.Progress
import Azsl.Proofs.Grammar.Adequacy
import Azsl.Proofs.Grammar.Cover
import Azsl.Proofs.Parse.Fresh
import Azsl.Proofs.Parse.Lossless
import Azsl.Proofs.Parse.Points
import Azsl.Proofs.Parse.Origin
import Azsl.Proofs.Parse.Portable
import Azsl.Proofs.Parse.Relocate
import Azsl.Proofs.Parse.Follow
import Azsl.Proofs.Parse.Incremental
import Azsl.Proofs.Workspace.Documents
import Azsl.Proofs.Workspace.Run
import Azsl.Proofs.Workspace.InSync
import Azsl.Proofs.Workspace.Pending
import Azsl.Proofs.Workspace.Opening
import Azsl.Proofs.Server.Agreement
import Azsl.Proofs.Grammar.Braces
import Azsl.Proofs.Parse.Containment
import Azsl.Proofs.Text.Positions
import Azsl.Proofs.Parse.Starts
import Azsl.Proofs.Symbol.Functions
import Azsl.Proofs.Syntax.Lookup
import Azsl.Proofs.Workspace.Definition
import Azsl.Proofs.Workspace.Known
import Azsl.Proofs.Include.Search
import Azsl.Proofs.Workspace.Loading
import Azsl.Proofs.Workspace.Worklist
import Azsl.Proofs.Workspace.Missing
import Azsl.Proofs.Parse.Outermost
import Azsl.Proofs.Server.Steps
import Azsl.Proofs.Grammar.Building
import Azsl.Proofs.Parse.Depth
import Azsl.Proofs.Expression.Tree
import Azsl.Proofs.Grammar.Whole
import Azsl.Proofs.Token.Spaced
import Azsl.Proofs.Grammar.Plain
import Azsl.Proofs.Expression.Words
import Azsl.Proofs.Expression.Operand
import Azsl.Proofs.Expression.Group
import Azsl.Proofs.Expression.Climb
import Azsl.Proofs.Expression.Sound
import Azsl.Proofs.Expression.RoundTrip
import Azsl.Proofs.Server.Replies
import Azsl.Proofs.Server.Configured
import Azsl.Proofs.Parse.Places
import Azsl.Proofs.Syntax.Path
import Azsl.Proofs.Parse.Tracking
import Azsl.Proofs.Grammar.Calls
import Azsl.Proofs.Grammar.Turns
import Azsl.Proofs.Parse.Ends
import Azsl.Proofs.Parse.Lookup
import Azsl.Proofs.Symbol.Calls
import Azsl.Proofs.Parse.Touched
import Azsl.Proofs.Text.Conversion
import Azsl.Proofs.Text.Splice
import Azsl.Proofs.Workspace.Refusal
import Azsl.Proofs.Workspace.Replacement
import Azsl.Proofs.Token.Tiling
import Azsl.Proofs.Token.Returns
import Azsl.Proofs.Parse.Ascent
import Azsl.Proofs.Parse.Reuse
import Azsl.Proofs.Token.Closing
import Azsl.Proofs.Grammar.Yield
import Azsl.Proofs.Text.Order
import Azsl.Proofs.Parse.Delimited
import Azsl.Proofs.Parse.Foreign
import Azsl.Proofs.Parse.Names
import Azsl.Proofs.Workspace.Outline
