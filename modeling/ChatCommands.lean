import ChatCommands.Load
import ChatCommands.Format.Message
import ChatCommands.Script
import ChatCommands.Session.Serve
import ChatCommands.Proofs.RateLimit.Window
import ChatCommands.Proofs.Registry.Valid
import ChatCommands.Proofs.Dispatch.Agreement
import ChatCommands.Proofs.Dispatch.Course
import ChatCommands.Proofs.RateLimit.Notice
import ChatCommands.Proofs.Usage.Match
import ChatCommands.Proofs.Chat.Exchange
import ChatCommands.Proofs.Dispatch.Access
import ChatCommands.Proofs.Dispatch.Account
import ChatCommands.Proofs.RateLimit.Lateness
import ChatCommands.Proofs.Menu.Outcome
import ChatCommands.Proofs.Script
import ChatCommands.Proofs.Catalog.Registered
import ChatCommands.Proofs.Dispatch.Helping
import ChatCommands.Proofs.Waiting.Sessions
import ChatCommands.Proofs.Session.Isolation
import ChatCommands.Proofs.Registry.Order
import ChatCommands.Proofs.Format.RoundTrip
import ChatCommands.Proofs.Serving.Sessions
import ChatCommands.Proofs.Memory.Records
import ChatCommands.Proofs.RateLimit.Remaining
import ChatCommands.Proofs.Command.Building
import ChatCommands.Proofs.Usage.Order
import ChatCommands.Proofs.Registry.Failure
import ChatCommands.Proofs.Help.Listing
import ChatCommands.Proofs.Invocation
import ChatCommands.Proofs.Session.Tolls
import ChatCommands.Proofs.Help.Aliases
import ChatCommands.Proofs.Help.Subcommands
import ChatCommands.Proofs.Registry.Groups
import ChatCommands.Proofs.Serving.Shutdown
import ChatCommands.Proofs.Memory.Failure
import ChatCommands.Proofs.Memory.Handing
import ChatCommands.Proofs.Validator
import ChatCommands.Proofs.Session.Deadlines
