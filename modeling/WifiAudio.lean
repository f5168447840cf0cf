import WifiAudio.Audio.Acquire
import WifiAudio.Audio.Codec
import WifiAudio.Audio.Copy
import WifiAudio.Audio.Decode
import WifiAudio.Audio.Playback
import WifiAudio.Audio.Poll
import WifiAudio.Audio.Reader
import WifiAudio.Audio.WavFile
import WifiAudio.Lib.Broadcast
import WifiAudio.Lib.CString
import WifiAudio.Lib.Decimal
import WifiAudio.Lib.Except
import WifiAudio.Lib.FileStream
import WifiAudio.Lib.LinkedList
import WifiAudio.Lib.Message
import WifiAudio.Lib.Moved
import WifiAudio.Lib.Region
import WifiAudio.Lib.Simulation
import WifiAudio.Lib.Termination
import WifiAudio.Lib.Token
import WifiAudio.Lib.Transition
import WifiAudio.Proof.Audio.Acquire
import WifiAudio.Proof.Audio.Decode
import WifiAudio.Proof.Audio.Description
import WifiAudio.Proof.Audio.Encode
import WifiAudio.Proof.Audio.OpusConfig
import WifiAudio.Proof.Audio.Playback
import WifiAudio.Proof.Audio.Poll
import WifiAudio.Proof.Audio.Pool
import WifiAudio.Proof.Audio.Reader
import WifiAudio.Proof.Audio.WavRoundTrip
import WifiAudio.Proof.Audio.WavSink
import WifiAudio.Proof.Audio.WavSource
import WifiAudio.Proof.Rtp.Engine
import WifiAudio.Proof.Rtp.Header
import WifiAudio.Proof.Rtp.Stream
import WifiAudio.Proof.Rtsp.Address
import WifiAudio.Proof.Rtsp.Confined
import WifiAudio.Proof.Rtsp.Entries
import WifiAudio.Proof.Rtsp.Fields
import WifiAudio.Proof.Rtsp.LineParser
import WifiAudio.Proof.Rtsp.Lines
import WifiAudio.Proof.Rtsp.Offer
import WifiAudio.Proof.Rtsp.Option
import WifiAudio.Proof.Rtsp.OptionFrame
import WifiAudio.Proof.Rtsp.Placed
import WifiAudio.Proof.Rtsp.Ports
import WifiAudio.Proof.Rtsp.Reading
import WifiAudio.Proof.Rtsp.Rendering
import WifiAudio.Proof.Rtsp.Reply
import WifiAudio.Proof.Rtsp.Request
import WifiAudio.Proof.Rtsp.Response
import WifiAudio.Proof.Rtsp.Scrub
import WifiAudio.Proof.Rtsp.Spec
import WifiAudio.Proof.Rtsp.Specs
import WifiAudio.Proof.Rtsp.Stated
import WifiAudio.Proof.Rtsp.Totality
import WifiAudio.Proof.Server.Accept
import WifiAudio.Proof.Server.Answers
import WifiAudio.Proof.Server.Broadcast
import WifiAudio.Proof.Server.Callback
import WifiAudio.Proof.Server.Capacity
import WifiAudio.Proof.Server.Deletion
import WifiAudio.Proof.Server.Exchange
import WifiAudio.Proof.Server.Framing
import WifiAudio.Proof.Server.InStep
import WifiAudio.Proof.Server.Isolation
import WifiAudio.Proof.Server.Led
import WifiAudio.Proof.Server.Machine
import WifiAudio.Proof.Server.Network
import WifiAudio.Proof.Server.Numbering
import WifiAudio.Proof.Server.Operations
import WifiAudio.Proof.Server.Ownership
import WifiAudio.Proof.Server.Playing
import WifiAudio.Proof.Server.Ports
import WifiAudio.Proof.Server.ReadBack
import WifiAudio.Proof.Server.Recording
import WifiAudio.Proof.Server.Refusal
import WifiAudio.Proof.Server.RtpInfo
import WifiAudio.Proof.Server.Running
import WifiAudio.Proof.Server.Search
import WifiAudio.Proof.Server.Setup
import WifiAudio.Proof.Server.Statistics
import WifiAudio.Proof.Server.Status
import WifiAudio.Proof.Server.Step
import WifiAudio.Proof.Server.Threads
import WifiAudio.Proof.Server.Wire
import WifiAudio.Rtp.Engine
import WifiAudio.Rtp.Packet
import WifiAudio.Rtsp.Handler
import WifiAudio.Rtsp.Parser
import WifiAudio.Rtsp.Protocol
import WifiAudio.Rtsp.Request
import WifiAudio.Rtsp.Session
import WifiAudio.Server.Callback
import WifiAudio.Server.Client
import WifiAudio.Server.Network
import WifiAudio.Server.Running
import WifiAudio.Server.Session
import WifiAudio.Server.System
import WifiAudio.Server.Threads
