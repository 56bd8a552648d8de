import EmbeddedBase.Transition.Core
import EmbeddedBase.Middleware.Bitstream.Correctness
import EmbeddedBase.Middleware.Eeprom.Partitioned
import EmbeddedBase.Platforms.Stm32f405.Filtering
import EmbeddedBase.TraceX.Streaming
import EmbeddedBase.Transition.Fifo
import EmbeddedBase.ThreadX.QueueFifo
import EmbeddedBase.General.Ltc68041.Reliability
import EmbeddedBase.NetX.PtpReads
import EmbeddedBase.NetX.PtpClock
import EmbeddedBase.NetX.Protobuf.Delivery
import EmbeddedBase.General.Lan8670.RegisterFile
import EmbeddedBase.General.Max7314
import EmbeddedBase.General.Pi4ioe
import EmbeddedBase.Middleware.Ringbuffer
import EmbeddedBase.Middleware.HeapRingbuffer.Create
import EmbeddedBase.Middleware.HeapRingbuffer.Ownership
import EmbeddedBase.Middleware.Debounce
import EmbeddedBase.Platforms.Stm32h563.Fdcan
import EmbeddedBase.Platforms.Stm32g431.Fdcan
import EmbeddedBase.Dev.Renode.Agreement
import EmbeddedBase.General.M24c32.Splitting
import EmbeddedBase.General.M24c32.Clearing
import EmbeddedBase.Middleware.Eeprom.Layout
import EmbeddedBase.Middleware.Bitstream.Safety
import EmbeddedBase.General.Sht30.Measurement
import EmbeddedBase.General.Lan8670.Smi
import EmbeddedBase.Platforms.FilterSlots
import EmbeddedBase.Middleware.Pid
import EmbeddedBase.General.P3t1755
import EmbeddedBase.General.HoneywellSsc
import EmbeddedBase.General.Ina226
import EmbeddedBase.General.Lan8670.TransmitTimer
import EmbeddedBase.General.As3935
import EmbeddedBase.Platforms.Sending
import EmbeddedBase.Dev.Renode.Ina226
import EmbeddedBase.Middleware.Serial
import EmbeddedBase.NerEnvironment.TestRunner.Mocks
import EmbeddedBase.NetX.PtpClient.Supervision
import EmbeddedBase.NetX.PtpClient.Isolation
import EmbeddedBase.NetX.PtpClient.Precision
import EmbeddedBase.NetX.PtpClient.Stop
import EmbeddedBase.NetX.PtpClient.Date
import EmbeddedBase.Dev.Renode.Stmcan.Receiving
import EmbeddedBase.Dev.Renode.Stmcan.Interrupts
import EmbeddedBase.Dev.Renode.Stmcan.Filtering
