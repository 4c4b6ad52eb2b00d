import IotCamera.Base.Buffers
import IotCamera.Base.Memory
import IotCamera.Base.Runs
import IotCamera.Base.Chains
import IotCamera.Base.Places
import IotCamera.Base.Logs
import IotCamera.Base.BitStrings
import IotCamera.Base.AdtsLayout
import IotCamera.Base.Writes
import IotCamera.Base.IntLoops
import IotCamera.Base.ShiftRegister
import IotCamera.Base.SerialNumbers
import IotCamera.Base.BigEndian
import IotCamera.Base.Codecs
import IotCamera.Ts.Crc
import IotCamera.Ts.Packet
import IotCamera.Ts.Mybs
import IotCamera.Ts.BitPosition
import IotCamera.Ts.ExpGolomb
import IotCamera.Ts.CheckedCodes
import IotCamera.Ts.LooseCodes
import IotCamera.Ts.Pes
import IotCamera.Ts.Mux
import IotCamera.Ts.Frames
import IotCamera.Ts.Demux
import IotCamera.Ts.Sends
import IotCamera.Ts.SectionCheck
import IotCamera.Ts.Plan
import IotCamera.Ts.Packetisation
import IotCamera.Ts.Steps
import IotCamera.Ts.Continuity
import IotCamera.Ts.Cadence
import IotCamera.Ts.ClockReference
import IotCamera.Ts.VideoClock
import IotCamera.Ts.AudioClock
import IotCamera.Ts.PacketCount
import IotCamera.Ts.Lengths
import IotCamera.Ts.SliceHeader
import IotCamera.Ts.Splitting
import IotCamera.Ts.AudioHeader
import IotCamera.Nna.Regions
import IotCamera.Nna.Lifetime
import IotCamera.Nna.Scaling
import IotCamera.Nna.Batches
import IotCamera.Nna.Rectangles
import IotCamera.Nna.Text
import IotCamera.Ion.Allocator
import IotCamera.Ion.Allocation
import IotCamera.Ion.Locking
import IotCamera.Ion.Translation
import IotCamera.Queue.LinkedQueue
import IotCamera.Queue.Fifo
import IotCamera.Queue.Interleaving
import IotCamera.Queue.MQueue
import IotCamera.Queue.Wakeups
import IotCamera.Queue.SharedData
import IotCamera.Rtmp.Push
import IotCamera.Rtmp.Handles
import IotCamera.Rtmp.Stopping
import IotCamera.Rtmp.Threads
import IotCamera.Rtmp.DeadWrites
import IotCamera.Rtmp.Amf0
import IotCamera.Rtmp.Amf0Encoding
import IotCamera.Rtmp.Amf0Decoding
import IotCamera.Rtmp.Amf0Accepted
import IotCamera.Rtmp.FastBuffer
import IotCamera.Rtmp.Outgoing
import IotCamera.Rtmp.Incoming
import IotCamera.Rtmp.Multiplexing
import IotCamera.Rtmp.Receiving
import IotCamera.Rtmp.Sending
import IotCamera.Rtmp.Batches
import IotCamera.Rtmp.Answering
import IotCamera.Rtmp.Delivery
import IotCamera.Rtmp.Connection
import IotCamera.Rtmp.Containment
import IotCamera.Mqtt.Client
import IotCamera.Kcp.Session
import IotCamera.Kcp.Locking
import IotCamera.Kcp.Refinement
import IotCamera.Kcp.Receive
import IotCamera.Kcp.Ikcp
import IotCamera.Kcp.Wire
import IotCamera.Kcp.Effects
import IotCamera.Kcp.Flushing
import IotCamera.Kcp.Arrivals
import IotCamera.Kcp.Messages
import IotCamera.Kcp.Sessions
import IotCamera.Kcp.Transfer
import IotCamera.Kcp.Windows
import IotCamera.Kcp.Schedule
import IotCamera.Adec.Adts
import IotCamera.Adec.Stream
import IotCamera.Adec.Containment
import IotCamera.Adec.Parsing
import IotCamera.Adec.Pool
import IotCamera.Rtsp.Encoder
import IotCamera.Wifi.Daemons
