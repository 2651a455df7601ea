import Unicomm.Facade.RoundTrip
import Unicomm.Facade.Canonical
import Unicomm.Facade.Header
import Unicomm.Facade.Ported
import Unicomm.Facade.HexStr
import Unicomm.Facade.XmlCodec
import Unicomm.Comm.Outgoing
import Unicomm.Comm.WriteStream
import Unicomm.Comm.Outcomes
import Unicomm.Comm.Replies
import Unicomm.Comm.NewMid
import Unicomm.Comm.Framing
import Unicomm.Comm.InternalMid
import Unicomm.Comm.WriteErrors
import Unicomm.Comm.SentHandlers
import Unicomm.Comm.Defaults
import Unicomm.Comm.SendErrors
import Unicomm.Comm.NoTimeouts
import Unicomm.Comm.Identity
import Unicomm.Comm.DecoderFactory
import Unicomm.Comm.SessionStages
import Unicomm.Dispatcher.MessageIds
import Unicomm.Dispatcher.SendAllReady
import Unicomm.Dispatcher.Lifecycle
import Unicomm.Dispatcher.Kick
import Unicomm.Dispatcher.KickCount
import Unicomm.Dispatcher.ContainerRefinement
import Unicomm.Client.ConnectErrors
import Unicomm.Server.Acceptor
import Unicomm.Comm.EndToEnd
import Unicomm.Comm.Timeouts
import Unicomm.Dispatcher.Network
import Unicomm.Dispatcher.RunWait
import Unicomm.Smart.StablePriorityQueue
import Unicomm.Facade.ConfigLoader
import Unicomm.Http.MessageDecoder
import Unicomm.Dispatcher.IdleTimer
import Unicomm.Comm.InternalMid
