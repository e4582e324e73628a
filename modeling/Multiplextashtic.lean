import Multiplextashtic.BackOff
import Multiplextashtic.ChannelView
import Multiplextashtic.Cleanup
import Multiplextashtic.ClientStream
import Multiplextashtic.ConfigComplete
import Multiplextashtic.ConfigSections
import Multiplextashtic.Decoder
import Multiplextashtic.Downlink
import Multiplextashtic.EchoAgreement
import Multiplextashtic.Freshness
import Multiplextashtic.NodeView
import Multiplextashtic.OwnIdentity
import Multiplextashtic.OwnNode
import Multiplextashtic.Pacing
import Multiplextashtic.PhysicalNodeManager
import Multiplextashtic.Quiescence
import Multiplextashtic.RateLimit
import Multiplextashtic.ReplayCursor
import Multiplextashtic.RouterForwarding
import Multiplextashtic.RouterSecurity
import Multiplextashtic.Uplink
