import TransparentProxyNet.TimeWheel.Tick
import TransparentProxyNet.MemoryPool.Reclaim
import TransparentProxyNet.MemoryPool.Growth
import TransparentProxyNet.MemoryPool.SizeClass
import TransparentProxyNet.Aes.FrameGrammar
import TransparentProxyNet.Session.Start
import TransparentProxyNet.Session.Parsing
import TransparentProxyNet.Session.Connects
import TransparentProxyNet.Tunnel.Transparency
import TransparentProxyNet.Tunnel.Closing
import TransparentProxyNet.Tunnel.Integrity
import TransparentProxyNet.Tunnel.Messages
import TransparentProxyNet.Tunnel.Progress
import TransparentProxyNet.Worker.EndOfStream
import TransparentProxyNet.Worker.Frames
import TransparentProxyNet.Worker.FlowControl
import TransparentProxyNet.Worker.OnWheel
import TransparentProxyNet.Worker.Cadence
import TransparentProxyNet.Worker.WindDown
import TransparentProxyNet.Worker.Failures
import TransparentProxyNet.Worker.ReceiveErrors
import TransparentProxyNet.Worker.Retention
import TransparentProxyNet.Worker.Progress
import TransparentProxyNet.Network.Memory
import TransparentProxyNet.Server.Launch
import TransparentProxyNet.Server.Sessions
