import IOEvent.TcpConnection.Inbound
import IOEvent.TcpConnection.Lifecycle
import IOEvent.TcpConnection.Outbound
import IOEvent.TcpConnection.Shutdown
import IOEvent.TcpConnection.Writes
import IOEvent.TcpConnection.Strings
import IOEvent.TcpConnection.Stream
import IOEvent.IOLoopThread.Pool
import IOEvent.ProtobufCodec.Link
import IOEvent.TcpConnection.Framing
import IOEvent.Codec
import IOEvent.Buffer.Integers
import IOEvent.Buffer.Growth
import IOEvent.Buffer.Space
import IOEvent.Codec.Chunks
import IOEvent.ProtobufCodec.Inside
import IOEvent.TimerQueue.Handover
import IOEvent.TimerQueue.Deadlines
import IOEvent.TimerQueue.Destructor
import IOEvent.TimerQueue.Liveness
import IOEvent.TimerQueue.Spurious
import IOEvent.Connector.Attempts
import IOEvent.Connector.Liveness
import IOEvent.TcpServer.Balance
import IOEvent.TcpServer.Liveness
import IOEvent.TcpServer.Destructor
import IOEvent.TimerWheel.Construction
import IOEvent.TimerWheel.Cancelling
import IOEvent.TimerWheel.Adding
import IOEvent.ThreadPool.Stop
import IOEvent.ThreadPool.Bound
import IOEvent.ThreadPool.EmptyTask
import IOEvent.ThreadPool.Progress
import IOEvent.TcpClient.Stop
import IOEvent.TcpClient.OneConnection
import IOEvent.TcpClient.Destructor
