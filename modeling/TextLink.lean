import TextLink.Client
import TextLink.Kernel.Trace
import TextLink.Medium.Scripted
import TextLink.Proofs.Text.Characters
import TextLink.Proofs.Text.Streams
import TextLink.Proofs.Queue.Recorder
import TextLink.Proofs.Queue.Delivery
import TextLink.Proofs.Kernel.Effects
import TextLink.Proofs.Slots
import TextLink.Proofs.Kernel.Changes
import TextLink.Proofs.Connection.Holding
import TextLink.Proofs.Connection.Reach
import TextLink.Proofs.Connection.Shape
import TextLink.Proofs.Loop.Moves
import TextLink.Proofs.Loop.Coherence
import TextLink.Proofs.Loop.Soundness
import TextLink.Proofs.Loop.Ending
import TextLink.Proofs.Loop.Steps
import TextLink.Proofs.Loop.Preservation
import TextLink.Proofs.Connection.Watching
import TextLink.Proofs.Kernel.Failures
import TextLink.Proofs.Connection.Rearming
import TextLink.Proofs.Loop.Output
import TextLink.Proofs.Agenda
import TextLink.Proofs.Loop.Lasting
import TextLink.Proofs.Loop.Stances
import TextLink.Proofs.Loop.Accounting
import TextLink.Proofs.Loop.Silence
import TextLink.Proofs.Loop.Deeds
import TextLink.Proofs.Loop.Rearming
import TextLink.Proofs.Loop.Mirror
import TextLink.Proofs.Loop.Inbound
import TextLink.Proofs.Loop.Established
import TextLink.Proofs.Connection.Supply
import TextLink.Proofs.Loop.Queues
import TextLink.Proofs.Loop.Messages
import TextLink.Proofs.Loop.Supply
import TextLink.Proofs.Connection.Faults
import TextLink.Proofs.Kernel.Supply
import TextLink.Proofs.Loop.Draining
import TextLink.Proofs.Loop.Callbacks
import TextLink.Proofs.Loop.Views
import TextLink.Proofs.Connection.Confined
import TextLink.Proofs.Loop.Commands
import TextLink.Proofs.Kernel.Clear
import TextLink.Proofs.Connection.Forwarding
import TextLink.Proofs.Loop.Forwarding
import TextLink.Proofs.Loop.Delivering
import TextLink.Proofs.Queue.Deferral
import TextLink.Proofs.Loop.Firing
import TextLink.Proofs.Loop.Isolation
import TextLink.Proofs.Text.Tails
import TextLink.Proofs.Text.Wire
import TextLink.Proofs.Connection.Undoing
import TextLink.Proofs.Loop.Undoing
import TextLink.Proofs.Backoff
import TextLink.Proofs.Loop.Pacing
import TextLink.Proofs.Loop.Fortunes
import TextLink.Proofs.Connection.Setbacks
import TextLink.Proofs.Loop.Setbacks
import TextLink.Proofs.Connection.Attempting
import TextLink.Proofs.Loop.Launching
import TextLink.Proofs.Loop.Attempting
import TextLink.Proofs.Slots.History
import TextLink.Proofs.Queue.Soundness
import TextLink.Proofs.Agenda.History

/-!
# Links that carry text

A client that holds many connections in one loop: messages go out through send queues, text comes in
through decoders of UTF-8, and a connect that fails is tried again as a policy says. All of it runs
over a simulated kernel with sockets, readiness and a clock.

The definitions come first: `TextLink.Text`, `TextLink.SendQueue`, `TextLink.SlotTable` and
`TextLink.Agenda` are the parts, `TextLink.Kernel` is what they run over, `TextLink.Connection` and
`TextLink.Loop` put them together, and `TextLink.Client` is what is handed out.

`TextLink.Proofs` has a folder for each part. What holds of one connection is shown step by step
(`TextLink.Proofs.Connection`). What holds of the loop is shown over its moves and its scenes
(`TextLink.Proofs.Loop.Moves`, `TextLink.Proofs.Loop.Scenes`), and from there for every run.
-/
