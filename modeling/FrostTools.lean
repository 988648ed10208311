import FrostTools.Lib.TransitionSystem
import FrostTools.Frostd.State
import FrostTools.Frostd.Functions
import FrostTools.Frostd.Server
import FrostTools.Frostd.Effects
import FrostTools.Frostd.Consistency
import FrostTools.Frostd.Listing
import FrostTools.Frostd.LifeCycle
import FrostTools.Frostd.Membership
import FrostTools.Frostd.Authentication
import FrostTools.Frostd.Isolation
import FrostTools.Frostd.Atomicity
import FrostTools.Client.Cipher
import FrostTools.Client.AddressBook
import FrostTools.Client.Contacts
import FrostTools.Client.SharedFiles
import FrostTools.Client.Sharing
import FrostTools.Client.Dealing
import FrostTools.Client.Generation
import FrostTools.Client.Exchange
import FrostTools.Dkg.KeyAgreement
import FrostTools.Dkg.Rejection
import FrostTools.Dkg.Closing
import FrostTools.Dkg.Echo
import FrostTools.Dkg.Overrun
import FrostTools.Session.Peers
import FrostTools.Session.Retry
import FrostTools.Session.Rejection
import FrostTools.Client.Http
import FrostTools.Client.Serving
import FrostTools.Sessions.CloseAll
import FrostTools.Signing.Cli
import FrostTools.Signing.Confirmation
import FrostTools.Signing.Alignment
import FrostTools.Signing.GroupSession
import FrostTools.Signing.GeneratedGroup
import FrostTools.Signing.SocketSession
import FrostTools.Signing.Rerandomization
import FrostTools.TrustedDealer.Shares
import FrostTools.ZcashSign.Spends
import FrostTools.ZcashSign.PlanParsing
import FrostTools.ZcashSign.Sinsemilla
