import CommandConsole.Text.Blank
import CommandConsole.Text.Quoted
import CommandConsole.Dictionary
import CommandConsole.Trie.Basic
import CommandConsole.Line.Token
import CommandConsole.Line.Basic
import CommandConsole.Line.Written
import CommandConsole.Spelling.Distance
import CommandConsole.Spelling.Hint
import CommandConsole.Text.Rows
import CommandConsole.Scrollback
import CommandConsole.History
import CommandConsole.Visibility
import CommandConsole.Observers
import CommandConsole.Diagnostic
import CommandConsole.Request
import CommandConsole.Numeral.Readable
import CommandConsole.Handler.Action
import CommandConsole.Completion.Cycle
import CommandConsole.Settings
import CommandConsole.Console.Dispatch
import CommandConsole.Console.Builtin
import CommandConsole.Host.Frame
import CommandConsole.Host.LogView
import CommandConsole.Proofs.Line.RoundTrip
import CommandConsole.Proofs.Trie.Refinement
import CommandConsole.Proofs.Trie.Canonical
import CommandConsole.Proofs.Console.Dispatch
import CommandConsole.Proofs.Registry.Refinement
import CommandConsole.Proofs.Visibility.Trace
import CommandConsole.Proofs.Completion.Cycle
import CommandConsole.Proofs.Completion.Acceptance
import CommandConsole.Proofs.Completion.Command
import CommandConsole.Proofs.Console.Faults
import CommandConsole.Proofs.Console.Uses
import CommandConsole.Proofs.Console.Calls
import CommandConsole.Proofs.Host.Lines
import CommandConsole.Proofs.Console.Requests
import CommandConsole.Proofs.Host.Clock
import CommandConsole.Proofs.Console.Output
import CommandConsole.Proofs.Host.Activities
import CommandConsole.Proofs.Text.Rows
import CommandConsole.Proofs.Host.Display
import CommandConsole.Proofs.Registry.Listing
import CommandConsole.Proofs.Spelling.Hint
import CommandConsole.Proofs.Spelling.Distance
import CommandConsole.Proofs.Console.Assistance
import CommandConsole.Proofs.History
import CommandConsole.Proofs.Host.Runs
import CommandConsole.Proofs.Host.Submissions
import CommandConsole.Proofs.Visibility.Toggles
import CommandConsole.Proofs.Host.Notifications
import CommandConsole.Proofs.Handler.Printing
import CommandConsole.Proofs.Console.Listings
import CommandConsole.Proofs.Console.Tuning
import CommandConsole.Proofs.Host.Tuning
import CommandConsole.Proofs.Host.Hearing
import CommandConsole.Proofs.Host.LogCapture
import CommandConsole.Proofs.Host.Requests
import CommandConsole.Proofs.Line.Layout
import CommandConsole.Proofs.Line.Joining
import CommandConsole.Proofs.Observers
import CommandConsole.Proofs.Scrollback.Text
import CommandConsole.Proofs.Line.Trimming
import CommandConsole.Proofs.Completion.Offers
import CommandConsole.Proofs.Host.Recall
import CommandConsole.Proofs.Console.SuggestedNames
import CommandConsole.Proofs.History.Browsing
import CommandConsole.Proofs.Spelling.Choice
import CommandConsole.Proofs.Console.MissingArguments
import CommandConsole.Proofs.Console.NewSettings
