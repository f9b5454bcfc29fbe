import ConfigDaemon.Text.Blank
import ConfigDaemon.Text.Decimal
import ConfigDaemon.Text.Lines
import ConfigDaemon.Text.Quoted
import ConfigDaemon.Text.Utf8
import ConfigDaemon.Table
import ConfigDaemon.Key
import ConfigDaemon.Registry
import ConfigDaemon.Database
import ConfigDaemon.Lock.Holder
import ConfigDaemon.Failure
import ConfigDaemon.Log.Entry
import ConfigDaemon.Log.Surviving
import ConfigDaemon.Wire.Archive
import ConfigDaemon.Wire.Message
import ConfigDaemon.Bytes
import ConfigDaemon.Wire.Codec
import ConfigDaemon.Wire.Frame
import ConfigDaemon.Disk
import ConfigDaemon.Volume
import ConfigDaemon.Machine
import ConfigDaemon.Log.Store
import ConfigDaemon.Log.Compaction
import ConfigDaemon.Log.Session
import ConfigDaemon.Lock.Election
import ConfigDaemon.Lock.Session
import ConfigDaemon.Client
import ConfigDaemon.Core.State
import ConfigDaemon.Core.Operation
import ConfigDaemon.Core.Delivery
import ConfigDaemon.Core.Sweep
import ConfigDaemon.Core.Replay
import ConfigDaemon.Housekeeping
import ConfigDaemon.Core.Session
import ConfigDaemon.Text.Shown
import ConfigDaemon.Text.Literal
import ConfigDaemon.Text.Duration
import ConfigDaemon.Wire.Describe
import ConfigDaemon.Remote.Exchange
import ConfigDaemon.Remote.Call
import ConfigDaemon.Remote.Callback
import ConfigDaemon.Remote.Endpoint
import ConfigDaemon.Remote.Scripted
import ConfigDaemon.Service.Answer
import ConfigDaemon.Service.Session
import ConfigDaemon.Toml.Reader
import ConfigDaemon.Toml.Text
import ConfigDaemon.Toml.Moment
import ConfigDaemon.Toml.Number
import ConfigDaemon.Toml.Value
import ConfigDaemon.Toml.Document
import ConfigDaemon.Settings
import ConfigDaemon.Environment
import ConfigDaemon.Path
import ConfigDaemon.Activation
import ConfigDaemon.Command.Arguments
import ConfigDaemon.Command.Execution
import ConfigDaemon.Command.Session
import ConfigDaemon.Main
import ConfigDaemon.Proofs.Text.Utf8
import ConfigDaemon.Proofs.Text.Lines
import ConfigDaemon.Proofs.Text.Quoted
import ConfigDaemon.Proofs.Table
import ConfigDaemon.Proofs.Disk
import ConfigDaemon.Proofs.Items
import ConfigDaemon.Proofs.Registry
import ConfigDaemon.Proofs.Log.Grammar
import ConfigDaemon.Proofs.Log.Entry
import ConfigDaemon.Proofs.Log.Surviving
import ConfigDaemon.Proofs.Log.Text
import ConfigDaemon.Proofs.Log.Store
import ConfigDaemon.Proofs.Log.Compaction
import ConfigDaemon.Proofs.Log.Interrupted
import ConfigDaemon.Proofs.Log.Attempts
import ConfigDaemon.Proofs.Log.Obstacles
import ConfigDaemon.Proofs.Log.Outcomes
import ConfigDaemon.Proofs.Log.Membership
import ConfigDaemon.Proofs.Log.Torn
import ConfigDaemon.Proofs.Log.Appended
import ConfigDaemon.Proofs.Log.Rearrangement
import ConfigDaemon.Proofs.Log.Likeness
import ConfigDaemon.Proofs.Core.Records
import ConfigDaemon.Proofs.Core.Telling
import ConfigDaemon.Proofs.Core.Acts
import ConfigDaemon.Proofs.Core.Mirror
import ConfigDaemon.Proofs.Core.Replay
import ConfigDaemon.Proofs.Core.Noting
import ConfigDaemon.Proofs.Core.Repair
import ConfigDaemon.Proofs.Core.Replayed
import ConfigDaemon.Proofs.Core.Generations
import ConfigDaemon.Proofs.Core.Ascending
import ConfigDaemon.Proofs.Core.Notices
import ConfigDaemon.Proofs.Core.Survivors
import ConfigDaemon.Proofs.Core.Changes
import ConfigDaemon.Proofs.Core.Sweeping
import ConfigDaemon.Proofs.Activation
import ConfigDaemon.Proofs.Housekeeping
import ConfigDaemon.Proofs.Idleness
import ConfigDaemon.Proofs.Wire.Archive
import ConfigDaemon.Proofs.Wire.Frame
import ConfigDaemon.Proofs.Wire.Size
import ConfigDaemon.Proofs.Wire.Canonical
import ConfigDaemon.Proofs.Remote.Aliases
import ConfigDaemon.Proofs.Remote.Watch
import ConfigDaemon.Proofs.Remote.Identity
import ConfigDaemon.Proofs.Remote.Unsubscribing
import ConfigDaemon.Proofs.Remote.Rekeying
import ConfigDaemon.Proofs.Lock.Election
import ConfigDaemon.Proofs.Lock.Ownership
import ConfigDaemon.Proofs.Lock.Deciding
import ConfigDaemon.Proofs.Lock.Openings
import ConfigDaemon.Proofs.Lock.Eviction
import ConfigDaemon.Proofs.Lock.Records
import ConfigDaemon.Proofs.Core.Commits
import ConfigDaemon.Proofs.Core.Delivered
import ConfigDaemon.Proofs.Core.Subtree
import ConfigDaemon.Proofs.Core.Vocabulary
import ConfigDaemon.Proofs.Core.Isolation
import ConfigDaemon.Proofs.Core.Legibility
import ConfigDaemon.Proofs.Core.Bystanders
import ConfigDaemon.Proofs.Core.Congruence
import ConfigDaemon.Proofs.Core.Rewriting
import ConfigDaemon.Proofs.Core.Reordering
import ConfigDaemon.Proofs.Core.Opening
import ConfigDaemon.Proofs.Core.OpenAddresses
import ConfigDaemon.Proofs.Key
import ConfigDaemon.Proofs.Registry.Matching
import ConfigDaemon.Proofs.Registry.History
import ConfigDaemon.Proofs.Core.Moves
import ConfigDaemon.Proofs.Core.Bulletins
import ConfigDaemon.Proofs.Service.Calls
import ConfigDaemon.Proofs.Service.Shutdown
import ConfigDaemon.Proofs.Service.Limits
import ConfigDaemon.Proofs.Service.Relaying
