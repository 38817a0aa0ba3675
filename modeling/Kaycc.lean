import Kaycc.AcceptorDescriptors
import Kaycc.BufferAssertions
import Kaycc.BufferFind
import Kaycc.BufferReadFd
import Kaycc.BufferStorage
import Kaycc.ConnectorBackoff
import Kaycc.ConnectorOrderExact
import Kaycc.ConnectorSockets
import Kaycc.ConnectorStop
import Kaycc.EPollPoller
import Kaycc.EPollPollerPoll
import Kaycc.Echo
import Kaycc.EventLoopFunctors
import Kaycc.EventLoopQuit
import Kaycc.EventLoopThreadStart
import Kaycc.EventLoopWakeup
import Kaycc.LinkThreads
import Kaycc.MutexLock
import Kaycc.PollPollerIndex
import Kaycc.Postcondition
import Kaycc.Reactor
import Kaycc.ReactorDispatch
import Kaycc.ReactorInvariant
import Kaycc.ReactorStopReadExact
import Kaycc.TcpClientDestroy
import Kaycc.TcpClientNames
import Kaycc.TcpClientOwns
import Kaycc.TcpClientRetry
import Kaycc.TcpConnectionChannel
import Kaycc.TcpConnectionClosed
import Kaycc.TcpConnectionHighWater
import Kaycc.TcpConnectionShutdown
import Kaycc.TcpConnectionStream
import Kaycc.TcpServerDestroy
import Kaycc.TcpServerPoolBalance
import Kaycc.Thread
import Kaycc.ThreadPoolProgress
import Kaycc.ThreadPoolStop
import Kaycc.ThreadPoolTasks
import Kaycc.TimerQueueArm
import Kaycc.TimerQueueCancel
import Kaycc.TimerQueueDestroy
import Kaycc.TimerQueueExpired
import Kaycc.TimerQueueFate
import Kaycc.TimerQueueFirings
import Kaycc.TimerQueueIndexes
import Kaycc.TimerQueueLate
