import UserDirectory.Broker.Rehearsal
import UserDirectory.Client.Rehearsal
import UserDirectory.Config.Settings
import UserDirectory.Gateway.Rehearsal
import UserDirectory.Hub.Rehearsal
import UserDirectory.Proofs.Json.Quoted
import UserDirectory.Proofs.Json.Token
import UserDirectory.Proofs.Json.Tree
import UserDirectory.Proofs.Json.Codec
import UserDirectory.Proofs.Time.Timestamp
import UserDirectory.Proofs.User
import UserDirectory.Proofs.Envelope
import UserDirectory.Proofs.Server
import UserDirectory.Proofs.Server.Run
import UserDirectory.Proofs.Client
import UserDirectory.Proofs.Broker
import UserDirectory.Proofs.Passage
import UserDirectory.Proofs.Server.Address
import UserDirectory.Proofs.Server.Pool
import UserDirectory.Proofs.Server.Serial
import UserDirectory.Proofs.Hub.Closing
import UserDirectory.Proofs.Hub.FanOut
import UserDirectory.Proofs.Hub.Membership
import UserDirectory.Proofs.Hub.InTurn
import UserDirectory.Proofs.Hub.Failures
import UserDirectory.Proofs.Hub.Returning
import UserDirectory.Proofs.Broker.Delivery
import UserDirectory.Proofs.Broker.Copies
import UserDirectory.Proofs.Broker.Outcome
import UserDirectory.Proofs.Broker.Closing
import UserDirectory.Proofs.Client.Reply
import UserDirectory.Proofs.WireForms
import UserDirectory.Proofs.Surfaces
import UserDirectory.Proofs.Store.History
import UserDirectory.Proofs.Server.Mirror
import UserDirectory.Proofs.Server.Names
import UserDirectory.Proofs.Discretion
import UserDirectory.Proofs.Tolerance
import UserDirectory.Proofs.Session.Discipline
import UserDirectory.Proofs.Feed
import UserDirectory.Proofs.Validation.Rules
import UserDirectory.Proofs.Updates
import UserDirectory.Proofs.Spellings
import UserDirectory.Proofs.Config.Limits
import UserDirectory.Proofs.Config.Settings
