import RemotePrograms.Main
import RemotePrograms.Proofs.Channel.Aborts
import RemotePrograms.Proofs.Channel.Audience
import RemotePrograms.Proofs.Channel.Connecting
import RemotePrograms.Proofs.Channel.Displaced
import RemotePrograms.Proofs.Channel.Handshake
import RemotePrograms.Proofs.Channel.Lasting
import RemotePrograms.Proofs.Channel.Pending
import RemotePrograms.Proofs.Channel.Remaining
import RemotePrograms.Proofs.Channel.Routing
import RemotePrograms.Proofs.Channel.SendLog
import RemotePrograms.Proofs.Order.Canonical
import RemotePrograms.Proofs.Order.Delimited
import RemotePrograms.Proofs.Order.Grammar
import RemotePrograms.Proofs.Order.HeaderChecks
import RemotePrograms.Proofs.Order.LaunchReader
import RemotePrograms.Proofs.Order.ParameterReader
import RemotePrograms.Proofs.Order.ProgramText
import RemotePrograms.Proofs.Order.RoundTrip
import RemotePrograms.Proofs.Order.Slices
import RemotePrograms.Proofs.Stream.Outcome
import RemotePrograms.Proofs.Stream.Settling
import RemotePrograms.Proofs.Stream.Watch
import RemotePrograms.Proofs.Stream.Written
import RemotePrograms.Scenario.Cutting
import RemotePrograms.Scenario.Play
import RemotePrograms.Scenario.Wire
