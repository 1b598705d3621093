import StationRelay.FileTree
import StationRelay.Main
import StationRelay.Relay
import StationRelay.Scenario
import StationRelay.Proofs.Conversation
import StationRelay.Proofs.Fragmentation
import StationRelay.Proofs.Outgoing
import StationRelay.Proofs.MessageBorders
import StationRelay.Proofs.Mailboxes
import StationRelay.Proofs.Roster
import StationRelay.Proofs.DeviceTurns
import StationRelay.Proofs.BrowserTurns
import StationRelay.Proofs.Workers
import StationRelay.Proofs.Exchange
import StationRelay.Proofs.Conservation
import StationRelay.Proofs.Provenance
import StationRelay.Proofs.Interleaving
import StationRelay.Proofs.Registration
import StationRelay.Proofs.Clock
import StationRelay.Proofs.Rhythm
import StationRelay.Proofs.Heartbeat
import StationRelay.Proofs.OverduePongs
import StationRelay.Proofs.Deadlines
import StationRelay.Proofs.Feasibility
import StationRelay.Proofs.Commutation
import StationRelay.Proofs.Silence
import StationRelay.Proofs.Attention
import StationRelay.Proofs.PartialRequests
import StationRelay.Proofs.Divergence
import StationRelay.Proofs.FrameStream
import StationRelay.Proofs.ExactAnswers
import StationRelay.Proofs.Admission
import StationRelay.Proofs.Confinement
import StationRelay.Proofs.FanOut
import StationRelay.Proofs.JsonGrammar
import StationRelay.Proofs.JsonReading
import StationRelay.Proofs.JsonStrings
import StationRelay.Proofs.JsonContents
import StationRelay.Proofs.Requests
import StationRelay.Proofs.RequestMeaning
import StationRelay.Proofs.ReplyTexts
import StationRelay.Proofs.Overlays
import StationRelay.Proofs.Leftovers
import StationRelay.Proofs.Quiescence
