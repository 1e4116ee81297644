import VpnTunnel.Address.Block
import VpnTunnel.Address.Endpoint
import VpnTunnel.Address.Interval
import VpnTunnel.Address.Ipv4
import VpnTunnel.Address.Ipv6
import VpnTunnel.Address.Specifier
import VpnTunnel.Attempt
import VpnTunnel.Cli.Arguments
import VpnTunnel.Cli.Command
import VpnTunnel.Cli.Run
import VpnTunnel.Client
import VpnTunnel.Config.Basic
import VpnTunnel.Config.Key
import VpnTunnel.Config.Parse
import VpnTunnel.Config.Render
import VpnTunnel.Document.Json
import VpnTunnel.Document.Reader
import VpnTunnel.Document.Toml.Lexeme
import VpnTunnel.Document.Toml.Parse
import VpnTunnel.Document.Toml.Print
import VpnTunnel.Document.Toml.Table
import VpnTunnel.Document.Value
import VpnTunnel.Engine
import VpnTunnel.File.Path
import VpnTunnel.File.Tree
import VpnTunnel.Flags
import VpnTunnel.Key.Base64
import VpnTunnel.Key.Basic
import VpnTunnel.Key.Curve25519
import VpnTunnel.Machine.Basic
import VpnTunnel.Machine.DryRun
import VpnTunnel.Machine.Schedule
import VpnTunnel.Machine.Step
import VpnTunnel.Main
import VpnTunnel.Number.Binary
import VpnTunnel.Number.Power
import VpnTunnel.Profile
import VpnTunnel.Proofs.Address.Canonical
import VpnTunnel.Proofs.Address.Complement
import VpnTunnel.Proofs.Address.Counting
import VpnTunnel.Proofs.Address.Cutting
import VpnTunnel.Proofs.Address.Nesting
import VpnTunnel.Proofs.Address.Permissive
import VpnTunnel.Proofs.Address.Specifiers
import VpnTunnel.Proofs.Address.Tiling
import VpnTunnel.Proofs.Address.Words
import VpnTunnel.Proofs.Address.Written
import VpnTunnel.Proofs.Address.WrittenIpv4
import VpnTunnel.Proofs.Address.WrittenIpv6
import VpnTunnel.Proofs.Cli.Connecting
import VpnTunnel.Proofs.Client.Interface
import VpnTunnel.Proofs.Client.Outcome
import VpnTunnel.Proofs.Client.ReadBack
import VpnTunnel.Proofs.Config.Entries
import VpnTunnel.Proofs.Config.FreeText
import VpnTunnel.Proofs.Config.Gathering
import VpnTunnel.Proofs.Config.Gist
import VpnTunnel.Proofs.Config.Layout
import VpnTunnel.Proofs.Config.Line
import VpnTunnel.Proofs.Config.Meaning
import VpnTunnel.Proofs.Config.Outline
import VpnTunnel.Proofs.Config.Reading
import VpnTunnel.Proofs.Config.Rearranging
import VpnTunnel.Proofs.Config.Refusal
import VpnTunnel.Proofs.Config.RoundTrip
import VpnTunnel.Proofs.Config.Section
import VpnTunnel.Proofs.Config.TakingUp
import VpnTunnel.Proofs.Config.WireSafe
import VpnTunnel.Proofs.Document.Leeway
import VpnTunnel.Proofs.DryRun.Acting
import VpnTunnel.Proofs.DryRun.Outcome
import VpnTunnel.Proofs.DryRun.Running
import VpnTunnel.Proofs.DryRun.Scenes
import VpnTunnel.Proofs.DryRun.Watching
import VpnTunnel.Proofs.Flags
import VpnTunnel.Proofs.Key.Canonical
import VpnTunnel.Proofs.Key.Written
import VpnTunnel.Proofs.Machine.Authorship
import VpnTunnel.Proofs.Machine.Chronicle
import VpnTunnel.Proofs.Machine.Connected
import VpnTunnel.Proofs.Machine.Custody
import VpnTunnel.Proofs.Machine.Deeds
import VpnTunnel.Proofs.Machine.Disabling
import VpnTunnel.Proofs.Machine.Ending
import VpnTunnel.Proofs.Machine.Exclusive
import VpnTunnel.Proofs.Machine.Hearing
import VpnTunnel.Proofs.Machine.Holdings
import VpnTunnel.Proofs.Machine.Ledger
import VpnTunnel.Proofs.Machine.Listening
import VpnTunnel.Proofs.Machine.Mirroring
import VpnTunnel.Proofs.Machine.Moves
import VpnTunnel.Proofs.Machine.Overlapping
import VpnTunnel.Proofs.Machine.Reception
import VpnTunnel.Proofs.Machine.Returning
import VpnTunnel.Proofs.Machine.Rounds
import VpnTunnel.Proofs.Machine.Serial
import VpnTunnel.Proofs.Machine.Solo
import VpnTunnel.Proofs.Machine.Turns
import VpnTunnel.Proofs.Mentions
import VpnTunnel.Proofs.Number.TotalOrder
import VpnTunnel.Proofs.Routing
import VpnTunnel.Proofs.Server.Choosing
import VpnTunnel.Proofs.Session.Expiring
import VpnTunnel.Proofs.Session.Renewing
import VpnTunnel.Proofs.Settings.ReadBack
import VpnTunnel.Proofs.Signal.Listeners
import VpnTunnel.Proofs.Signal.Places
import VpnTunnel.Proofs.Text.Folding
import VpnTunnel.Proofs.Text.Names
import VpnTunnel.Proofs.Text.Numeral
import VpnTunnel.Proofs.Text.Pieces
import VpnTunnel.Proofs.Text.Trimming
import VpnTunnel.Routing
import VpnTunnel.Server.Basic
import VpnTunnel.Server.Document
import VpnTunnel.Session.Basic
import VpnTunnel.Session.Renewal
import VpnTunnel.Settings.Basic
import VpnTunnel.Settings.Document
import VpnTunnel.Settings.File
import VpnTunnel.Signal.Broadcast
import VpnTunnel.Signal.Watch
import VpnTunnel.Status
import VpnTunnel.Text.Blank
import VpnTunnel.Text.Cut
import VpnTunnel.Text.Decimal
import VpnTunnel.Text.Letter
import VpnTunnel.Text.NameSet
import VpnTunnel.Text.Printable
import VpnTunnel.Text.Quoted
